import FacetQuery.Value

/-!
# The keys of the cache

What the cache keeps is the answer to one of two questions: which records of a type match
one value of one property, and which records of a type there are.  Values of different
kinds are different keys, even where a lookup finds the same records for them.
-/

namespace FacetQuery

/-- A question whose answer is a set of records: which records of a type match a value of a
property, or which records of a type there are. -/
inductive CacheKey where
  | predicate (entityType property : String) (value : Value)
  | all (entityType : String)
deriving DecidableEq, Hashable

def CacheKey.toText : CacheKey → String
  | predicate entityType property value =>
    entityType ++ "." ++ property ++ "=" ++ value.display
  | all entityType => entityType ++ ".*"

instance : ToString CacheKey := ⟨CacheKey.toText⟩

end FacetQuery
