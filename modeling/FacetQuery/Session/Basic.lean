import FacetQuery.Session.Command

/-!
# Sessions

A session is a filter over a watched store of its own, and a cache between the two.  It
is driven by commands, one after the other.

Refreshes run when a command is done, all of them to their end, before the next command
begins; while they are held they wait.  No time passes in a session, so an entry is due
for a refresh only where the settings ask for one at once.
-/

namespace FacetQuery

/-- A filter over a store of its own, whose refreshes can be held back. -/
structure Session where
  config : EngineConfig
  cache : PredicateCache
  backend : WatchedStore
  held : Bool

namespace Session

def filterWith (config : EngineConfig) : RecordFilter WatchedStore :=
  ⟨config, WatchedStore.backend⟩

def start (config : EngineConfig) : Session :=
  ⟨config, (filterWith config).emptyCache, .empty, false⟩

/-- The time of a session, which does not pass. -/
def now : Nat :=
  0

def withCache {α : Type} (action : CacheM WatchedStore α) : StateM Session α :=
  fun s =>
    let (result, cache, backend) := action.run (s.cache, s.backend)
    (result, { s with cache, backend })

/-! ### The store -/

def interval (first last : RecordId) : List RecordId :=
  (List.range' first.toNat (last.toNat + 1 - first.toNat)).map UInt64.ofNat

/-- The value that a record has when it goes through a list of values. -/
def cycleValue? (id : RecordId) (cycle : String × List Value) : Option (String × Value) :=
  (cycle.2[id.toNat % cycle.2.length]?).map (cycle.1, ·)

/-- The store with the records of an interval, each with a value of each cycle. -/
def insertCycle (store : Store) (entityType : String) (first last : RecordId)
    (cycles : List (String × List Value)) : Store :=
  (interval first last).foldl
    (fun store id => store.insert entityType id (cycles.filterMap (cycleValue? id))) store

def putStore (entityType : String) (store : Store) : StateM Session Reply :=
  fun s => (.count (store.size entityType), { s with backend := { s.backend with store } })

def lookupReply (store : Store) (entityType property : String) (m : ValueMatch) :
    Except CommandError Reply :=
  match store.lookup entityType property m with
  | .error error => .error (.lookup error)
  | .ok ids => .ok (.records ids.toList)

def performStore (command : StoreCommand) : StateM Session (Except CommandError Reply) := do
  let store := (← get).backend.store
  match command with
  | .insert entityType id properties =>
    .ok <$> putStore entityType (store.insert entityType id properties)
  | .insertCycle entityType first last cycles =>
    .ok <$> putStore entityType (insertCycle store entityType first last cycles)
  | .createRangeIndex entityType property => do
    let _ ← putStore entityType (store.createRangeIndex entityType property)
    pure (.ok .done)
  | .size entityType => pure (.ok (.count (store.size entityType)))
  | .isEmpty => pure (.ok (.truth store.isEmpty))
  | .allRecords entityType => pure (.ok (.records (store.allRecords entityType).toList))
  | .lookupValue entityType property value =>
    match ValueMatch.classify value with
    | .error error => pure (.error (.range error))
    | .ok m => pure (lookupReply store entityType property m)
  | .lookup entityType property m => pure (lookupReply store entityType property m)

/-! ### The backend -/

def performBackend : BackendCommand → StateM Session Reply
  | .fail message => do
    modify fun s => { s with backend := { s.backend with failure := message } }
    pure .done
  | .hold => do
    modify fun s => { s with held := true }
    pure .done
  | .release => do
    modify fun s => { s with held := false }
    pure .done

/-! ### The cache -/

def isHit : PredicateCache.Fetched → Bool
  | .hit _ => true
  | _ => false

/-- Asks for a key so many times, and says of each answer whether it was the entry that
was there. -/
def fetchAgain (key : CacheKey) : Nat → CacheM WatchedStore (List Bool)
  | 0 => pure []
  | times + 1 => do
    let fetched ← PredicateCache.get WatchedStore.backend now key
    return isHit fetched :: (← fetchAgain key times)

def performCache : CacheCommand → StateM Session Reply
  | .resolve entityType property value again => do
    let key := CacheKey.predicate entityType property value
    let fetched ← withCache (PredicateCache.get WatchedStore.backend now key)
    let shared ← withCache (fetchAgain key again)
    pure (.resolved fetched.ids.toList shared)
  | .allRecords entityType => do
    let fetched ← withCache (PredicateCache.get WatchedStore.backend now (.all entityType))
    pure (.records fetched.ids.toList)
  | .size => return .count (← get).cache.size
  | .inFlight => return .count (← get).cache.inFlight.length
  | .invalidateAll => do
    modify fun s => { s with cache := s.cache.invalidateAll }
    pure .done
  | .display => return .text (← get).cache.toText
  | .config => return .config (← get).config

/-! ### The filter -/

def registryOf (atoms : List Atom) : Registry :=
  atoms.foldl (fun r a => (r.intern a).2) .empty

def pageOutcome (result : Except FilterError FilterPage) : Except CommandError Reply :=
  (result.map Reply.page).mapError .filter

def performFilter (command : FilterCommand) : StateM Session (Except CommandError Reply) := do
  let filter := filterWith (← get).config
  match command with
  | .request request => pageOutcome <$> withCache (filter.runJson now request)
  | .requestText text =>
    match Wire.readRequestText text with
    | .error (.json fault) => pure (.error (.json fault))
    | .error (.query error) => pure (.error (.filter (.query error)))
    | .ok request => pageOutcome <$> withCache (filter.run now request)
  | .page entityType query offset limit =>
    pageOutcome <$> withCache (filter.filter now entityType query offset limit)
  | .evaluate entityType query => do
    let result ← withCache (filter.evaluate now entityType query)
    pure ((result.map Reply.matched).mapError .filter)
  | .evaluateCover entityType atoms cover =>
    match cover.mapM Path.read with
    | .error error => pure (.error (.path error))
    | .ok cover => do
      let plan := ⟨registryOf atoms, cover⟩
      let result ← withCache (filter.evaluatePlan now entityType plan)
      pure ((result.map Reply.matched).mapError fun error => .filter (.evaluate error))

/-! ### Commands -/

def perform : Command → StateM Session (Except CommandError Reply)
  | .store command => performStore command
  | .backend command => .ok <$> performBackend command
  | .cache command => .ok <$> performCache command
  | .filter command => performFilter command

/-- Takes the questions and warnings that have not been taken notice of. -/
def takeNotes : StateM Session (List BackendCall × List CacheWarning) :=
  fun s =>
    ((s.backend.calls, s.cache.warnings),
      { s with
        backend := { s.backend with calls := [] }
        cache := { s.cache with warnings := [] } })

def settle : StateM Session Unit := do
  if (← get).held then pure () else withCache (PredicateCache.settle WatchedStore.backend now)

/-- Carries out a command and lets the refreshes run that it has left behind. -/
def step (command : Command) : StateM Session Report := do
  let outcome ← perform command
  let (calls, warnings) ← takeNotes
  -- What is noted from here on is the work of the refreshes.
  settle
  let (refreshCalls, refreshWarnings) ← takeNotes
  return { outcome, calls, warnings, refreshCalls, refreshWarnings, stats := (← get).cache.stats }

end Session
end FacetQuery
