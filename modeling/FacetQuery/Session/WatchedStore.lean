import FacetQuery.Cache.Backend

/-!
# A store that is watched

A `WatchedStore` is a backend over a store that notes every question it is asked, and that
can be made to fail: while it fails it answers every question with the same message.
-/

namespace FacetQuery

inductive BackendCall where
  | lookup (entityType property : String) (m : ValueMatch)
  | allRecords (entityType : String)
deriving DecidableEq

/-- A store together with the questions it was asked and nobody has taken notice of, the oldest
one first.  While there is a failure, it is the answer to every question. -/
structure WatchedStore where
  store : Store
  failure : Option String
  calls : List BackendCall

namespace WatchedStore

def empty : WatchedStore :=
  ⟨.empty, none, []⟩

def ask (call : BackendCall) (answer : Store → Except LookupError IdSet) :
    StateM WatchedStore (Except LookupError IdSet) :=
  fun w =>
    let result := match w.failure with
      | some message => .error (.backend message)
      | none => answer w.store
    (result, { w with calls := w.calls ++ [call] })

def backend : Backend WatchedStore where
  lookup entityType property m :=
    ask (.lookup entityType property m) fun store => store.lookup entityType property m
  allRecords entityType :=
    ask (.allRecords entityType) fun store => .ok (store.allRecords entityType)

end WatchedStore
end FacetQuery
