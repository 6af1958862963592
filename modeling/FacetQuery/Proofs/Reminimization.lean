import FacetQuery.Proofs.Minimization
import FacetQuery.Proofs.Path.Formula

/-!
# Minimising a cover again

A cover is itself a formula once it is written down, and that formula has the truth value of the
one that was minimised.  The choice among equally small covers depends on nothing but the rows in
which a formula is true (`Expr.smallestCover_congr`), so the second minimisation makes it as the
first one did, path by path and in the same order (`minimize_coverText`).

The empty cover is written as the empty text.  This is no formula, but a blank text is not read
either: it is minimised to the empty cover at once (`minimize_of_blank`).
-/

namespace FacetQuery

open Implicant

variable {e e' : Expr} {formula : String} {numVars : Nat} {cover : List Path}

/-! ### What a cover depends on -/

/-- Formulas with the same meaning are true in the same rows. -/
theorem Expr.trueRows_congr (same : ∀ a, e.eval a = e'.eval a) :
    e.trueRows numVars = e'.trueRows numVars := by
  rw [trueRows, trueRows, funext same]

/-- **Formulas with the same meaning have the same cover.** -/
theorem Expr.smallestCover_congr (same : ∀ a, e.eval a = e'.eval a) :
    e.smallestCover numVars = e'.smallestCover numVars := by
  rw [smallestCover, smallestCover, primes, primes, trueRows_congr same]

/-! ### When minimising succeeds -/

/-- A blank formula is minimised to the empty cover, without being read. -/
theorem minimize_of_blank (fits : numVars ≤ maxVariables)
    (blank : numVars = 0 ∨ (Text.trim formula.toList).isEmpty = true) :
    minimize formula numVars = .ok [] := by
  rw [minimize, Minimization.run, if_neg (Nat.not_lt.mpr fits), if_pos blank]
  rfl

/-- The truth table of a formula exists only if the formula is read and its variables are
declared. -/
theorem exists_read_of_truthTable {rows : List Assignment}
    (h : truthTable formula numVars = .ok rows) :
    ∃ e, Expr.read formula = .ok e ∧ ∀ v ∈ e.vars, v < numVars := by
  rw [truthTable] at h
  split at h
  · cases h
  · cases hread : Expr.read formula with
    | error error =>
        rw [hread] at h
        cases h
    | ok e =>
        refine ⟨e, rfl, fun v hv => ?_⟩
        rw [hread] at h
        simp only [Except.mapError, bind, Except.bind] at h
        cases hmax : e.maxVar? with
        | none =>
            rw [Expr.maxVar?, List.max?_eq_none_iff] at hmax
            rw [hmax] at hv
            cases hv
        | some w =>
            -- The largest variable is declared, so all of them are.
            have hle : v ≤ w := (List.max?_eq_some_iff.mp hmax).2 v hv
            rw [hmax] at h
            dsimp only at h
            split at h
            · cases h
            · omega

/-- **A cover is empty, or the smallest cover of a formula whose variables are declared.** -/
theorem eq_nil_or_smallestCover_of_minimize (h : minimize formula numVars = .ok cover) :
    numVars ≤ maxVariables ∧
      (cover = [] ∨ ∃ e, Expr.read formula = .ok e ∧ 1 ≤ numVars ∧
        (∀ v ∈ e.vars, v < numVars) ∧ cover = (e.smallestCover numVars).map toPath) := by
  have hrun := h
  rw [minimize, Minimization.run] at hrun
  split at hrun
  · cases hrun
  · rename_i tooMany
    have fits : numVars ≤ maxVariables := Nat.not_lt.mp tooMany
    refine ⟨fits, ?_⟩
    split at hrun
    · cases hrun
      exact Or.inl rfl
    · rename_i readIt
      have pos : 1 ≤ numVars := Nat.one_le_iff_ne_zero.mpr fun zero => readIt (Or.inl zero)
      cases hrows : truthTable formula numVars with
      | error error =>
          rw [hrows] at hrun
          cases hrun
      | ok rows =>
          obtain ⟨e, read, below⟩ := exists_read_of_truthTable hrows
          rw [minimize_eq read pos fits below] at h
          cases h
          exact Or.inr ⟨e, read, pos, below, rfl⟩

/-! ### Minimising a cover -/

/-- A formula that is somewhere false has no empty path in its cover. -/
theorem literals_ne_nil_of_eval {a : Assignment} (word : numVars ≤ 64)
    (below : ∀ v ∈ e.vars, v < numVars) (somewhere : e.eval a = false) :
    ∀ p ∈ (e.smallestCover numVars).map toPath, p.literals ≠ [] := by
  intro p hp hempty
  have holds : coverHolds ((e.smallestCover numVars).map toPath) a = true := by
    refine List.any_eq_true.mpr ⟨p, hp, ?_⟩
    rw [Path.holds, hempty]
    rfl
  rw [coverHolds_smallestCover word below, somewhere] at holds
  cases holds

/-- **Minimising the text of a cover gives the same cover again**: the same paths in the same
order, provided that every path has a text. -/
theorem minimize_coverText (h : minimize formula numVars = .ok cover)
    (nonempty : ∀ p ∈ cover, p.literals ≠ []) :
    minimize (coverText cover) numVars = .ok cover := by
  obtain ⟨fits, rfl | ⟨e, -, pos, below, hcover⟩⟩ := eq_nil_or_smallestCover_of_minimize h
  · exact minimize_of_blank fits (Or.inr rfl)
  · by_cases hempty : cover = []
    · rw [hempty]
      exact minimize_of_blank fits (Or.inr rfl)
    have word : numVars ≤ 64 := Nat.le_succ_of_le fits
    have declared : ∀ p ∈ cover, ∀ l ∈ p.literals, l.var < numVars :=
      hcover ▸ var_lt_of_mem_smallestCover word
    have read : Expr.read (coverText cover) = .ok (coverExpr cover) := by
      refine read_coverText hempty nonempty fun p hp l hl => ?_
      exact (declared p hp l hl).trans_le (fits.trans (by decide))
    have declaredVars : ∀ v ∈ (coverExpr cover).vars, v < numVars := by
      intro v hv
      obtain ⟨p, hp, l, hl, rfl⟩ := mem_vars_coverExpr.mp hv
      exact declared p hp l hl
    have same : ∀ a, (coverExpr cover).eval a = e.eval a := by
      intro a
      rw [eval_coverExpr, hcover, coverHolds_smallestCover word below]
    rw [minimize_eq read pos fits declaredVars, Expr.smallestCover_congr same, ← hcover]

/-- A formula with a cyclic table of prime implicants: of two covers with three paths each, the
same one is chosen again. -/
theorem minimize_coverText_of_cyclic_table :
    ∃ cover, minimize "!0&1 | !1&2 | !2&0" 3 = .ok cover ∧ (∀ p ∈ cover, p.literals ≠ []) ∧
      cover ≠ [] ∧ minimize (coverText cover) 3 = .ok cover := by
  obtain ⟨e, read, below, never, once⟩ :
      ∃ e, Expr.read "!0&1 | !1&2 | !2&0" = .ok e ∧ (∀ v ∈ e.vars, v < 3) ∧
        e.eval 0 = false ∧ e.eval 1 = true :=
    ⟨_, rfl, by decide, by decide, by decide⟩
  have h := minimize_eq read (by decide) (by decide) below
  have word : 3 ≤ 64 := by decide
  have nonempty := literals_ne_nil_of_eval word below never
  refine ⟨_, h, nonempty, fun hempty => ?_, minimize_coverText h nonempty⟩
  have holds := coverHolds_smallestCover word below 1
  rw [hempty, once] at holds
  cases holds

end FacetQuery
