import FacetQuery.Cache.Backend
import FacetQuery.Config.Basic
import Std.Data.HashMap

/-!
# The predicate cache

The cache keeps the answers of a backend.  A key without an entry is *loaded* while the
caller waits.  A key with an entry is answered from the entry at once, however old it is;
an entry that has reached a certain age is also computed again in the background, by a
*refresh*, of which there is at most one for each key.

A backend that fails is never a caller's concern: the failure is reported as a warning,
counted, and answered with no records, and it leaves the entries as they are.

## Refreshes and invalidation

Invalidating the cache drops all entries, but a refresh that is under way may hold an
answer that is older than the invalidation.  So the cache has an *epoch*, a number that
every invalidation raises; a refresh notes the epoch in which it starts, and its answer is
kept only if no other epoch has begun since.

Everything that callers can see of one another is one step here: reading an entry with the
load that this may need (`fetch`), starting a refresh (`startRefresh`), the two halves of
an invalidation (`beginEpoch`, `dropEntries`), and the five steps of a refresh in
`FacetQuery.Cache.Refresh`.  Callers that run side by side are interleavings of these
steps.

Entries stay until they are invalidated; a cache that also drops entries which nobody
reads, or has too many, only loads a key more often.
-/

namespace FacetQuery

/-- A set of records that is kept, with the time at which it was entered, in nanoseconds, and
the epoch in which its computation began.  Nothing depends on this epoch; it is what there is to
say about an entry after an invalidation. -/
structure CachedSet where
  ids : IdSet
  enteredAt : Nat
  epoch : Nat
deriving DecidableEq

/-- How a refresh has ended: its answer has become the entry of the key, or was overtaken by an
invalidation, or there was none. -/
inductive RefreshEnd where
  | kept
  | dropped
  | failed (error : LookupError)
deriving DecidableEq

/-- How far a refresh is.  Between any two phases anything else may happen to the cache, above
all an invalidation; so the phases are as fine as the points at which a refresh looks at the
epoch or at the entries. -/
inductive RefreshPhase where
  | waiting
  | answered (answer : Except LookupError IdSet)
  /-- The answer is not overtaken and is about to be entered. -/
  | accepted (ids : IdSet)
  | entered
  /-- There is nothing left to do but to let go of the key. -/
  | ended (result : RefreshEnd)

/-- A computation in the background, bound to the epoch in which it started. -/
structure Refresh where
  key : CacheKey
  startedIn : Nat
  phase : RefreshPhase

/-- What the cache has done so far: the keys that had no entry when they were asked for, the
refreshes whose answer was kept, and the loads and refreshes without an answer.  A load that
fails counts among the loads as well. -/
structure CacheStats where
  loads : Nat
  refreshes : Nat
  failures : Nat
deriving DecidableEq

inductive FailedWork where
  | load
  | refresh
deriving DecidableEq

/-- The report of a failure.  It is for whoever looks after the cache; the caller is answered as
if there were no records. -/
structure CacheWarning where
  work : FailedWork
  key : CacheKey
  error : LookupError
deriving DecidableEq

/-- The wording of a warning, without the key and the error. -/
def FailedWork.message : FailedWork → String
  | load => "predicate lookup failed; resolving to no records"
  | refresh => "predicate refresh failed; keeping previous records"

def CacheWarning.toText (w : CacheWarning) : String :=
  "message: " ++ w.work.message ++ " | key: " ++ w.key.toText ++ " | error: " ++ w.error.message

/-- The state of the cache.  `inFlight` and `running` are two views of the refreshes under way,
the keys for which none may start and the refreshes themselves.  That they agree is a property
of the steps, not part of the type: they are written in different places, and forgetting one of
them would keep a key from ever being refreshed again. -/
structure PredicateCache where
  /-- The age from which on an entry is computed again when it is read. -/
  refreshAfter : Duration
  entries : Std.HashMap CacheKey CachedSet
  inFlight : List CacheKey
  running : List Refresh
  epoch : Nat
  stats : CacheStats
  /-- The failures that have not been taken notice of, the oldest one first. -/
  warnings : List CacheWarning

namespace PredicateCache

def empty (config : CacheConfig) : PredicateCache where
  refreshAfter := config.refreshAfter
  entries := ∅
  inFlight := []
  running := []
  epoch := 0
  stats := ⟨0, 0, 0⟩
  warnings := []

def size (c : PredicateCache) : Nat :=
  c.entries.size

/-- A failure is counted and reported, and the entries stay as they are. -/
def fail (c : PredicateCache) (work : FailedWork) (key : CacheKey) (error : LookupError) :
    PredicateCache :=
  { c with
    stats := { c.stats with failures := c.stats.failures + 1 }
    warnings := c.warnings ++ [⟨work, key, error⟩] }

/-! ### Invalidation -/

/-- The first half of an invalidation: a new epoch begins.  It comes before the entries are
dropped, so a refresh that enters its answer after the entries were dropped finds out at its
second check. -/
def beginEpoch (c : PredicateCache) : PredicateCache :=
  { c with epoch := c.epoch + 1 }

def dropEntries (c : PredicateCache) : PredicateCache :=
  { c with entries := ∅ }

def invalidateAll (c : PredicateCache) : PredicateCache :=
  c.beginEpoch.dropEntries

/-! ### Reading -/

/-- What comes of asking for a key: the entry that was there, or the set that has been loaded,
or the failure of the load. -/
inductive Fetched where
  | hit (entry : CachedSet)
  | loaded (ids : IdSet)
  | failed (error : LookupError)

/-- The records that the caller gets.  A failure is not told from a key without records. -/
def Fetched.ids : Fetched → IdSet
  | hit entry => entry.ids
  | loaded ids => ids
  | failed _ => ∅

/-- The cache with the outcome of a load.  Only an answer becomes an entry, so a key whose load
has failed is loaded again as soon as it is asked for again. -/
def finishLoad (c : PredicateCache) (now : Nat) (key : CacheKey)
    (answer : Except LookupError IdSet) : Fetched × PredicateCache :=
  -- A load counts whether it succeeds or not.
  let c := { c with stats := { c.stats with loads := c.stats.loads + 1 } }
  match answer with
  | .ok ids => (.loaded ids, { c with entries := c.entries.insert key ⟨ids, now, c.epoch⟩ })
  | .error error => (.failed error, c.fail .load key error)

/-- Starts a refresh of a key, unless there is one.  The refresh belongs to the epoch of this
moment, not to that in which its answer arrives. -/
def startRefresh (c : PredicateCache) (key : CacheKey) : PredicateCache :=
  if key ∈ c.inFlight then c
  else { c with
    inFlight := key :: c.inFlight
    running := c.running ++ [⟨key, c.epoch, .waiting⟩] }

def isDue (c : PredicateCache) (now : Nat) (entry : CachedSet) : Bool :=
  c.refreshAfter.nanos ≤ now - entry.enteredAt

/-- Starts a refresh if one is due.  Only an entry that was there can be due; what has just been
loaded is new. -/
def startIfDue (c : PredicateCache) (now : Nat) (key : CacheKey) : Fetched → PredicateCache
  | .hit entry => if c.isDue now entry then c.startRefresh key else c
  | _ => c

end PredicateCache

abbrev CacheM (σ : Type) :=
  StateM (PredicateCache × σ)

namespace PredicateCache

variable {σ : Type}

/-- Asks for a key: its entry, or else the answer of the backend.  Reading and loading are one
step, for callers who ask for the same key meanwhile wait for the load. -/
def fetch (b : Backend σ) (now : Nat) (key : CacheKey) : CacheM σ Fetched :=
  fun (c, s) =>
    match c.entries[key]? with
    | some entry => (.hit entry, c, s)
    | none =>
      let (answer, s) := (b.answer key).run s
      let (fetched, c) := c.finishLoad now key answer
      (fetched, c, s)

/-- Asks for a key, and starts the refresh that is due then. -/
def get (b : Backend σ) (now : Nat) (key : CacheKey) : CacheM σ Fetched := do
  let fetched ← fetch b now key
  modify fun (c, s) => (c.startIfDue now key fetched, s)
  pure fetched

end PredicateCache
end FacetQuery
