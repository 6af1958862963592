import FacetQuery.Cache.Basic

/-!
# The steps of a refresh

A refresh asks the backend, checks its epoch, enters the answer, checks its epoch once
more, and lets go of its key.  Each of these is one step (`advance`), between which
anything else may happen to the cache; the second check takes the entry back if an
invalidation came between the first check and the entry.

A refresh is addressed by its position among those that are running.
-/

namespace FacetQuery.PredicateCache

variable {σ : Type}

/-- Whether no epoch has begun since a refresh started. -/
def isCurrent (c : PredicateCache) (r : Refresh) : Bool :=
  c.epoch == r.startedIn

def countRefresh (c : PredicateCache) : PredicateCache :=
  { c with stats := { c.stats with refreshes := c.stats.refreshes + 1 } }

/-- What a refresh does with its answer: it is about to be entered, unless it is overtaken
or there is none. -/
def check (c : PredicateCache) (r : Refresh) :
    Except LookupError IdSet → RefreshPhase × PredicateCache
  -- A failure is reported even when the refresh is overtaken.
  | .error error => (.ended (.failed error), c.fail .refresh r.key error)
  | .ok ids => (if c.isCurrent r then .accepted ids else .ended .dropped, c)

/-- The answer of a refresh becomes the entry of its key.  The entry bears the epoch in which
the refresh started, also when another one has begun since. -/
def enter (c : PredicateCache) (now : Nat) (r : Refresh) (ids : IdSet) : PredicateCache :=
  { c with entries := c.entries.insert r.key ⟨ids, now, r.startedIn⟩ }

/-- What a refresh does once its answer is entered: it counts, unless it is overtaken. -/
def confirm (c : PredicateCache) (r : Refresh) : RefreshPhase × PredicateCache :=
  if c.isCurrent r then (.ended .kept, c.countRefresh)
  -- The invalidation may have dropped the entries before this one was entered.
  else (.ended .dropped, { c with entries := c.entries.erase r.key })

def setPhase (c : PredicateCache) (i : Nat) (r : Refresh) (phase : RefreshPhase) :
    PredicateCache :=
  { c with running := c.running.set i { r with phase } }

def release (c : PredicateCache) (i : Nat) (r : Refresh) : PredicateCache :=
  { c with running := c.running.eraseIdx i, inFlight := c.inFlight.erase r.key }

/-- The next step of a refresh that does not ask the backend; one that waits has no such step. -/
def advanceAlone (c : PredicateCache) (now : Nat) (i : Nat) (r : Refresh) : PredicateCache :=
  match r.phase with
  | .waiting => c
  | .answered answer =>
    let (phase, c) := c.check r answer
    c.setPhase i r phase
  | .accepted ids => (c.enter now r ids).setPhase i r .entered
  | .entered =>
    let (phase, c) := c.confirm r
    c.setPhase i r phase
  | .ended _ => c.release i r

/-- The next step of the refresh at a position.  Where there is no refresh nothing happens, so
any list of positions is a schedule. -/
def advance (b : Backend σ) (now : Nat) (i : Nat) : CacheM σ Unit :=
  modify fun (c, s) =>
    match c.running[i]? with
    | none => (c, s)
    | some r =>
      match r.phase with
      | .waiting =>
        let (answer, s) := (b.answer r.key).run s
        (c.setPhase i r (.answered answer), s)
      | _ => (c.advanceAlone now i r, s)

/-- The next steps of the refresh that has been running for the longest time, so many at
most; when it ends the next one takes its place. -/
def settleWithin (b : Backend σ) (now : Nat) : Nat → CacheM σ Unit
  | 0 => pure ()
  | steps + 1 => do
    advance b now 0
    settleWithin b now steps

/-- How many steps a refresh takes: it asks, checks, enters its answer, checks again and lets go
of its key. -/
def refreshSteps : Nat :=
  5

/-- Lets all refreshes run to their end, one after the other. -/
def settle (b : Backend σ) (now : Nat) : CacheM σ Unit := do
  let (c, _) ← MonadState.get
  settleWithin b now (refreshSteps * c.running.length)

def toText (c : PredicateCache) : String :=
  "PredicateCache \x7b entry_count: " ++ String.ofList (Text.numeral c.size) ++
    ", refresh_after: " ++ c.refreshAfter.toText ++
    ", in_flight: " ++ String.ofList (Text.numeral c.inFlight.length) ++ " \x7d"

instance : ToString PredicateCache := ⟨toText⟩

end FacetQuery.PredicateCache
