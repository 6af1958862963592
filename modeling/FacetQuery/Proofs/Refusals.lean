import FacetQuery.Proofs.RecordFilter
import FacetQuery.Proofs.Wire.Rendering

/-!
# Which queries are refused

Between a query in the wire form and its answer stand a printer and a reader of formulas, a truth
table, a cover and a registry, and most of them can fail.  None of them does: the formula of a
query is well formed, its variables are the numbers of the registered atoms, and so are those of
the cover.  What remains are the two bounds on the number of distinct atoms (`refusal?`), and both
are checked while the query is planned, before anything is asked.

A refused query therefore does nothing at all.  This is said of the computation and not of its
states: it is the one that returns the error (`RecordFilter.evaluate_refuses_by_size`), so there is
no backend, no state of it and no cache that could notice.
-/

namespace FacetQuery

variable {σ : Type} {query : QueryTree} {config : EngineConfig} {error : FilterError}

/-- Why a query with so many distinct atoms is refused, if it is. -/
def refusal? (count max : Nat) : Option FilterError :=
  if max < count then some (.tooManyPredicates count max)
  else if maxVariables < count then some (.minimize (.tooManyVariables count))
  else none

/-- A query that is not refused for its size fits. -/
theorem QueryTree.fits_of_refusal? (nonempty : query.hasNoEmptyList = true)
    (h : refusal? query.labels.dedup.length config.maxPredicates.toNat = none) :
    query.Fits config := by
  refine ⟨nonempty, ?_⟩
  rw [refusal?] at h
  split at h
  · cases h
  · split at h
    · cases h
    · exact Nat.le_min.mpr ⟨by omega, by omega⟩

/-- **A query that is refused for its size has no plan.** -/
theorem QueryPlan.ofQuery_of_refusal?
    (h : refusal? query.labels.dedup.length config.maxPredicates.toNat = some error) :
    ofQuery config query = .error error := by
  rw [← QueryTree.size_registry_normalize] at h
  rw [refusal?] at h
  rw [ofQuery]
  split at h
  · rename_i tooMany
    cases h
    rw [if_pos tooMany]
    rfl
  · rename_i allowed
    split at h
    · rename_i tooMany
      cases h
      rw [if_neg allowed, minimize, Minimization.run, if_pos tooMany]
      rfl
    · cases h

namespace RecordFilter

/-- A query that is refused for its size does nothing. -/
theorem evaluate_of_refusal? (f : RecordFilter σ) (now : Nat) (entityType : String)
    (h : refusal? query.labels.dedup.length f.config.maxPredicates.toNat = some error) :
    f.evaluate now entityType query = pure (.error error) := by
  rw [evaluate, QueryPlan.ofQuery_of_refusal? h]

/-- Any other query is answered, whatever the backend answers. -/
theorem exists_evaluate (f : RecordFilter σ) (fits : query.Fits f.config) (now : Nat)
    (entityType : String) (st : PredicateCache × σ) :
    ∃ ids, ((f.evaluate now entityType query).run st).1 = .ok ids := by
  obtain ⟨ids, _, _, _, hrun, -⟩ := exists_evaluateCover_eq_ok
    (PredicateCache.source f.backend now entityType) fits.var_lt_of_mem_cover st
  refine ⟨ids, ?_⟩
  rw [f.fst_run_evaluate fits, evaluatePlan, hrun]
  rfl

/-- **A query of the wire form is refused for its size only, and then nothing happens.**  Whatever
the settings, the backend and the cache are: evaluating a query fails with an error exactly if the
number of its distinct atoms is refused with this error, and an evaluation that fails is the
computation that asks nobody, changes nothing and returns the error. -/
theorem evaluate_refuses_by_size (f : RecordFilter σ) {j : Json}
    (read : Wire.readQuery j = .ok query) (now : Nat) (entityType : String)
    (st : PredicateCache × σ) (error : FilterError) :
    (((f.evaluate now entityType query).run st).1 = .error error ↔
      refusal? query.labels.dedup.length f.config.maxPredicates.toNat = some error) ∧
    (((f.evaluate now entityType query).run st).1 = .error error →
      f.evaluate now entityType query = pure (.error error)) := by
  have nonempty : query.hasNoEmptyList = true :=
    Wire.hasNoEmptyList_of_isQuery (Wire.readQuery_eq_ok.mp read).isQuery
  have fails : ((f.evaluate now entityType query).run st).1 = .error error ↔
      refusal? query.labels.dedup.length f.config.maxPredicates.toNat = some error := by
    cases h : refusal? query.labels.dedup.length f.config.maxPredicates.toNat with
    | some error' =>
        have run : ((f.evaluate now entityType query).run st).1 = .error error' := by
          rw [f.evaluate_of_refusal? now entityType h]
          rfl
        rw [run, Option.some.injEq, Except.error.injEq]
    | none =>
        obtain ⟨ids, hids⟩ :=
          f.exists_evaluate (QueryTree.fits_of_refusal? nonempty h) now entityType st
        rw [hids]
        exact ⟨nofun, nofun⟩
  exact ⟨fails, fun h => f.evaluate_of_refusal? now entityType (fails.mp h)⟩

/-- A filter that admits one atom, over a backend that counts what it is asked: a query with two
atoms in three leaves is refused, and nothing is asked. -/
theorem evaluate_refuses_by_size_of_two_atoms :
    let red : Atom := ⟨"color", [.text "Red"]⟩
    let blue : Atom := ⟨"color", [.text "Blue"]⟩
    let query : QueryTree := .all [.leaf red false, .any [.leaf blue false, .leaf red true]] true
    let f : RecordFilter Nat :=
      ⟨⟨.standard, 1⟩, ⟨fun _ _ _ asked => (.ok ∅, asked + 1), fun _ asked => (.ok ∅, asked + 1)⟩⟩
    Wire.readQuery (Wire.writeTree query) = .ok query ∧
      (f.evaluate 5 "shoe" query).run (f.emptyCache, 0) =
        (.error (.tooManyPredicates 2 1), f.emptyCache, 0) := by
  intro red blue query f
  have read : Wire.readQuery (Wire.writeTree query) = .ok query :=
    Wire.readQuery_eq_ok.mpr (Wire.spellsQuery_writeTree query (by decide) (by decide))
  obtain ⟨fails, still⟩ :=
    f.evaluate_refuses_by_size read 5 "shoe" (f.emptyCache, 0) (.tooManyPredicates 2 1)
  refine ⟨read, ?_⟩
  rw [still (fails.mpr (by decide))]
  rfl

end RecordFilter
end FacetQuery
