import Mathlib.Data.List.Basic
import FacetQuery.Formula.Reader

/-!
# What the meaning of a formula depends on

The truth value of a formula depends on its own variables only (`eval_congr`), and joining
members means their conjunction or disjunction whether there are several of them or one
(`eval_join_and`, `eval_join_or`): the reader's habit of leaving single members unjoined is
not visible in truth values.
-/

namespace FacetQuery

/-- The assignment of given truth values to the variables 0 to 63. -/
def Assignment.ofFn (truth : Nat → Bool) : Assignment :=
  (BitVec.iunfoldr (fun (v : Fin 64) (_ : Unit) => ((), truth v)) ()).2

theorem Assignment.value_ofFn (truth : Nat → Bool) (v : Nat) :
    (ofFn truth).value v = (decide (v < 64) && truth v) := by
  by_cases hv : v < 64
  · rw [decide_eq_true hv, Bool.true_and]
    exact BitVec.iunfoldr_getLsbD (fun _ => ()) ⟨v, hv⟩ fun _ => rfl
  · rw [decide_eq_false hv, Bool.false_and]
    exact BitVec.getLsbD_of_ge _ v (Nat.not_lt.mp hv)

namespace Expr

mutual

/-- **A formula does not see variables that it does not contain.** -/
theorem eval_congr {a b : Assignment} :
    ∀ e : Expr, (∀ v ∈ e.vars, a.value v = b.value v) → e.eval a = e.eval b
  | .var v, agree => by
      rw [eval, eval]
      exact agree v (by simp [vars])
  | .not e, agree => by
      rw [eval, eval, eval_congr e (by simpa [vars] using agree)]
  | .and es, agree => by
      have members := eval_congr_of_mem es (by simpa [vars] using agree)
      rw [eval, eval, evalAll_eq_all, evalAll_eq_all, Bool.eq_iff_iff, List.all_eq_true,
        List.all_eq_true]
      exact forall₂_congr fun e he => by rw [members e he]
  | .or es, agree => by
      have members := eval_congr_of_mem es (by simpa [vars] using agree)
      rw [eval, eval, evalSome_eq_any, evalSome_eq_any, Bool.eq_iff_iff, List.any_eq_true,
        List.any_eq_true]
      exact exists_congr fun e => and_congr_right fun he => by rw [members e he]

private theorem eval_congr_of_mem {a b : Assignment} :
    ∀ es : List Expr, (∀ v ∈ varsOf es, a.value v = b.value v) → ∀ e ∈ es, e.eval a = e.eval b
  | [], _ => by simp
  | e :: rest, agree => by
      simp only [varsOf, List.mem_append] at agree
      refine List.forall_mem_cons.mpr ⟨?_, ?_⟩
      · exact eval_congr e fun v hv => agree v (Or.inl hv)
      · exact eval_congr_of_mem rest fun v hv => agree v (Or.inr hv)

end

theorem varsOf_eq_flatMap (es : List Expr) : varsOf es = es.flatMap vars := by
  induction es with
  | nil => rfl
  | cons e rest ih => rw [varsOf, ih, List.flatMap_cons]

/-- The largest variable is below a bound when all of them are. -/
theorem lt_of_maxVar? {e : Expr} {n v : Nat} (below : ∀ w ∈ e.vars, w < n)
    (h : e.maxVar? = some v) : v < n :=
  below v (List.max?_mem h)

end Expr

namespace Formula

open FacetQuery.Expr

theorem eval_join_and (a : Assignment) (es : List Expr) :
    (join .and es).eval a = es.all (eval a) := by
  unfold join
  split
  · simp
  · rw [eval, evalAll_eq_all]

theorem eval_join_or (a : Assignment) (es : List Expr) :
    (join .or es).eval a = es.any (eval a) := by
  unfold join
  split
  · simp
  · rw [eval, evalSome_eq_any]

theorem vars_join_and (es : List Expr) : (join .and es).vars = es.flatMap vars := by
  unfold join
  split
  · simp
  · rw [vars, varsOf_eq_flatMap]

theorem vars_join_or (es : List Expr) : (join .or es).vars = es.flatMap vars := by
  unfold join
  split
  · simp
  · rw [vars, varsOf_eq_flatMap]

end Formula
end FacetQuery
