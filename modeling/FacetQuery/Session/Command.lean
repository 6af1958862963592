import FacetQuery.RecordFilter
import FacetQuery.Session.WatchedStore

/-!
# Commands and their replies

What can be asked of a session, by the part of it that is meant: the store, the backend
around it, the cache, or the filter; and what may come back.
-/

namespace FacetQuery

/-- A command for the store.  It goes past the cache, which keeps what it has. -/
inductive StoreCommand where
  | insert (entityType : String) (id : RecordId) (properties : List (String × Value))
  /-- Adds the records of an interval.  Each property goes through a list of values: a
  record has the value at the position of its number, counted around the list. -/
  | insertCycle (entityType : String) (first last : RecordId)
      (cycles : List (String × List Value))
  | createRangeIndex (entityType property : String)
  | size (entityType : String)
  | isEmpty
  | allRecords (entityType : String)
  | lookupValue (entityType property : String) (value : Value)
  | lookup (entityType property : String) (m : ValueMatch)

inductive BackendCommand where
  /-- Lets the backend fail with a message, or not any more. -/
  | fail (message : Option String)
  | hold
  | release

inductive CacheCommand where
  /-- Asks for the records of a value, and so many times again. -/
  | resolve (entityType property : String) (value : Value) (again : Nat)
  | allRecords (entityType : String)
  | size
  | inFlight
  | invalidateAll
  | display
  | config

inductive FilterCommand where
  | request (request : Json)
  | requestText (text : String)
  | page (entityType : String) (query : QueryTree) (offset limit : UInt64)
  | evaluate (entityType : String) (query : QueryTree)
  /-- Evaluates a cover over atoms that are numbered in the given order. -/
  | evaluateCover (entityType : String) (atoms : List Atom) (cover : List String)

inductive Command where
  | store (command : StoreCommand)
  | backend (command : BackendCommand)
  | cache (command : CacheCommand)
  | filter (command : FilterCommand)

inductive Reply where
  | done
  | count (n : Nat)
  | truth (b : Bool)
  | records (ids : List RecordId)
  /-- The records of a value, and whether each further answer was the same entry. -/
  | resolved (ids : List RecordId) (shared : List Bool)
  | page (page : FilterPage)
  | matched (ids : IdSet)
  | text (s : String)
  | config (c : EngineConfig)

/-- Why nothing comes of a command: what it was given cannot be read, or the lookup or the
filter has failed. -/
inductive CommandError where
  | range (error : RangeError)
  | lookup (error : LookupError)
  | json (fault : JsonFault)
  | filter (error : FilterError)
  | path (error : PathError)

/-- What comes of a command, and what happened on the occasion: the questions and warnings of
the command itself, those of the refreshes that ran behind it, and the counts of the cache after
all this. -/
structure Report where
  outcome : Except CommandError Reply
  calls : List BackendCall
  warnings : List CacheWarning
  refreshCalls : List BackendCall
  refreshWarnings : List CacheWarning
  stats : CacheStats

end FacetQuery
