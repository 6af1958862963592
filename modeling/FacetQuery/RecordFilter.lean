import FacetQuery.Cache.Refresh
import FacetQuery.Evaluation
import FacetQuery.Minimize
import FacetQuery.Query.Normalize
import FacetQuery.Wire.Request

/-!
# The filter

A filter answers queries.  It plans a query first: the query is brought into normal form,
which numbers its atoms, and its formula is reduced to a smallest cover (`plan`).  The
cover is then evaluated on what the cache knows or finds out.

Only planning can fail, and it asks nothing of anybody, so a query that is refused leaves
no trace.
-/

namespace FacetQuery

/-- Why a query is not answered.  A backend that fails is no reason: its failures are answered
with no records. -/
inductive FilterError where
  | query (error : Wire.QueryError)
  | tooManyPredicates (count max : Nat)
  | minimize (error : MinimizeError)
  | evaluate (error : EvaluateError)
deriving DecidableEq

def FilterError.message : FilterError → String
  | query error => error.message
  | tooManyPredicates count max =>
    "query uses " ++ String.ofList (Text.numeral count) ++
      " distinct predicates, more than the configured maximum of " ++
      String.ofList (Text.numeral max)
  | minimize error => error.message
  | evaluate error => error.message

structure FilterPage where
  ids : List RecordId
  total : Nat
deriving DecidableEq

/-- The page of a set, and the size of the whole set.  A page beyond the end is empty and still
tells the size. -/
def FilterPage.ofIds (ids : IdSet) (offset limit : Nat) : FilterPage :=
  ⟨ids.page offset limit, ids.size⟩

/-- What is evaluated for a query: a cover, and the atoms that its variables number. -/
structure QueryPlan where
  registry : Registry
  cover : List Path

/-- The plan of a query.  Its atoms are counted before its formula is minimised, so a query with
too many of them costs nothing. -/
def QueryPlan.ofQuery (config : EngineConfig) (query : QueryTree) :
    Except FilterError QueryPlan := do
  let normal := query.normalize
  let count := normal.registry.size
  if config.maxPredicates.toNat < count then
    throw (.tooManyPredicates count config.maxPredicates.toNat)
  let cover ← (minimize normal.formula count).mapError .minimize
  pure ⟨normal.registry, cover⟩

/-- The cache as a source of the records of one type. -/
def PredicateCache.source {σ : Type} (b : Backend σ) (now : Nat) (entityType : String) :
    BitmapSource (PredicateCache × σ) where
  resolve property value := Fetched.ids <$> get b now (.predicate entityType property value)
  allRecords := Fetched.ids <$> get b now (.all entityType)

structure RecordFilter (σ : Type) where
  config : EngineConfig
  backend : Backend σ

namespace RecordFilter

variable {σ : Type}

def emptyCache (f : RecordFilter σ) : PredicateCache :=
  .empty f.config.cache

def evaluatePlan (f : RecordFilter σ) (now : Nat) (entityType : String) (plan : QueryPlan) :
    CacheM σ (Except EvaluateError IdSet) :=
  evaluateCover (PredicateCache.source f.backend now entityType) plan.registry plan.cover

def evaluate (f : RecordFilter σ) (now : Nat) (entityType : String) (query : QueryTree) :
    CacheM σ (Except FilterError IdSet) :=
  match QueryPlan.ofQuery f.config query with
  | .error error => pure (.error error)
  | .ok plan => Except.mapError .evaluate <$> f.evaluatePlan now entityType plan

def filter (f : RecordFilter σ) (now : Nat) (entityType : String) (query : QueryTree)
    (offset limit : UInt64) : CacheM σ (Except FilterError FilterPage) :=
  Except.map (FilterPage.ofIds · offset.toNat limit.toNat) <$> f.evaluate now entityType query

def run (f : RecordFilter σ) (now : Nat) (request : FilterRequest) :
    CacheM σ (Except FilterError FilterPage) :=
  f.filter now request.entityType request.query request.offset request.limit

def runJson (f : RecordFilter σ) (now : Nat) (request : Json) :
    CacheM σ (Except FilterError FilterPage) :=
  match Wire.readRequest request with
  | .error error => pure (.error (.query error))
  | .ok request => f.run now request

end RecordFilter
end FacetQuery
