import FacetQuery.Proofs.Minimization
import FacetQuery.Proofs.Query.NormalForm
import FacetQuery.RecordFilter

/-!
# The plan of a query

A query without empty lists that has no more distinct atoms than are allowed has a plan
(`QueryPlan.ofQuery_eq`).  The variables of its cover are numbers of registered atoms
(`var_lt_of_mem_cover`), and the cover holds under an assignment when the query does with the bit
of its number for every atom (`coverHolds_cover`).
-/

namespace FacetQuery

variable {query : QueryTree} {config : EngineConfig}

/-- The query has an atom, and no more than are allowed. -/
structure QueryTree.Fits (query : QueryTree) (config : EngineConfig) : Prop where
  nonempty : query.hasNoEmptyList = true
  allowed : query.labels.dedup.length ≤ min config.maxPredicates.toNat maxVariables

namespace QueryTree.Fits

theorem size_le (h : query.Fits config) : query.normalize.registry.size ≤ maxVariables := by
  rw [size_registry_normalize]
  exact h.allowed.trans (Nat.min_le_right _ _)

theorem size_le_maxPredicates (h : query.Fits config) :
    query.normalize.registry.size ≤ config.maxPredicates.toNat := by
  rw [size_registry_normalize]
  exact h.allowed.trans (Nat.min_le_left _ _)

theorem size_pos (h : query.Fits config) : 1 ≤ query.normalize.registry.size := by
  rw [size_registry_normalize, Nat.one_le_iff_ne_zero, Ne, List.length_eq_zero_iff,
    List.dedup_eq_nil]
  exact query.labels_ne_nil h.nonempty

theorem read_formula (h : query.Fits config) :
    Expr.read query.normalize.formula = .ok query.normalExpr := by
  refine read_formula_normalize h.nonempty (h.size_le.trans ?_)
  rw [maxVariables, UInt64.size]
  omega

end QueryTree.Fits

def QueryTree.cover (query : QueryTree) : List Path :=
  (query.normalExpr.smallestCover query.normalize.registry.size).map Implicant.toPath

/-- **A query that fits has a plan.** -/
theorem QueryPlan.ofQuery_eq (h : query.Fits config) :
    QueryPlan.ofQuery config query = .ok ⟨query.normalize.registry, query.cover⟩ := by
  rw [QueryPlan.ofQuery, if_neg (Nat.not_lt.mpr h.size_le_maxPredicates),
    minimize_eq h.read_formula h.size_pos h.size_le QueryTree.vars_normalExpr_lt]
  rfl

/-- The variables of the cover are numbers of registered atoms. -/
theorem QueryTree.Fits.var_lt_of_mem_cover (h : query.Fits config) :
    ∀ p ∈ query.cover, ∀ l ∈ p.literals, l.var < query.normalize.registry.size :=
  var_lt_of_mem_smallestCover (Nat.le_succ_of_le h.size_le)

/-- The cover reads the query. -/
theorem QueryTree.Fits.coverHolds_cover (h : query.Fits config) (a : Assignment) :
    coverHolds query.cover a =
      query.holds fun atom => a.value (query.normalize.registry.atoms.idxOf atom) := by
  rw [QueryTree.cover, coverHolds_smallestCover (Nat.le_succ_of_le h.size_le)
    QueryTree.vars_normalExpr_lt, QueryTree.eval_normalExpr]

end FacetQuery
