import FacetQuery.Cache.Key
import FacetQuery.Store.Basic

/-!
# Backends

A `Backend` is whoever owns the records and answers lookups.  Its answers may change from
one question to the next, and it may fail: each question is a step on a state of its own,
of a type that this library leaves open.

A key is answered in two steps (`Backend.answer`).  Its value is classified first, and
only a value that is something to look up reaches the backend.
-/

namespace FacetQuery

/-- Whoever answers lookups.  Both questions are steps on a state of type `σ`, so a backend may
change its answers, fail for a while, or keep a record of what it is asked; nothing is assumed
of it. -/
structure Backend (σ : Type) where
  lookup (entityType property : String) (m : ValueMatch) : StateM σ (Except LookupError IdSet)
  allRecords (entityType : String) : StateM σ (Except LookupError IdSet)

namespace Backend

variable {σ : Type}

/-- The answer for a key.  The value is classified before anybody is asked, so one that is
nothing to look up fails without the backend. -/
def answer (b : Backend σ) : CacheKey → StateM σ (Except LookupError IdSet)
  | .predicate entityType property value =>
    match ValueMatch.classify value with
    | .error e => pure (.error (.invalidValue e))
    | .ok m => b.lookup entityType property m
  | .all entityType => b.allRecords entityType

/-- A store as a backend that does not change and does not fail. -/
def ofStore (store : Store) : Backend Unit where
  lookup entityType property m := pure (store.lookup entityType property m)
  allRecords entityType := pure (.ok (store.allRecords entityType))

end Backend
end FacetQuery
