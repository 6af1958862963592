import Mathlib.Data.Finset.Card
import Mathlib.Data.Finset.Range
import FacetQuery.Implicant

/-!
# Implicants, variable by variable

Implicants are computed on words of 64 bits, and everything that is proved of them is said
variable by variable: which variables an implicant forces, and to what.  This module is the
passage between the two.  Every operation on words has an equation for one variable here, and
two implicants over the same variables that agree on each of them are equal (`ext_bits`).

An implicant is well formed when it gives no value to an open variable and forces none beyond
its number of variables (`wellFormed_iff`).  Under this condition it covers a row exactly when
the row has the forced value of every forced variable (`covers_iff`); the comparison of whole
words is not mentioned again.

The number of forced variables is the size of a set (`support`), so that opening a variable is
taking it out of the set.
-/

namespace FacetQuery
namespace Implicant

/-! ### Words -/

theorem getLsbD_lowBits (n v : Nat) : (lowBits n).getLsbD v = decide (v < 64 ∧ v < n) := by
  rw [lowBits, BitVec.getLsbD_ushiftRight, BitVec.getLsbD_allOnes]
  congr 1
  exact propext (by omega)

theorem getLsbD_bit (v w : Nat) : (bit v).getLsbD w = decide (v < 64 ∧ v = w) := by
  rw [bit_eq_twoPow, BitVec.getLsbD_twoPow, Bool.decide_and]

theorem getLsbD_and_lowBits (row : Assignment) (n v : Nat) :
    (row &&& lowBits n).getLsbD v = (row.getLsbD v && decide (v < n)) := by
  rw [BitVec.getLsbD_and, getLsbD_lowBits]
  by_cases hv : v < 64
  · simp [hv]
  · simp [BitVec.getLsbD_of_ge row v (by omega)]

/-- The rows of the truth table are the assignments without bits beyond the variables. -/
theorem toNat_lt_iff {row : Assignment} {n : Nat} :
    row.toNat < Nat.pow 2 n ↔ row &&& lowBits n = row := by
  constructor
  · intro hlt
    refine BitVec.eq_of_getLsbD_eq fun v _ => ?_
    rw [getLsbD_and_lowBits]
    by_cases hv : v < n
    · rw [decide_eq_true hv, Bool.and_true]
    · have hzero : row.getLsbD v = false :=
        Nat.testBit_lt_two_pow (hlt.trans_le (Nat.pow_le_pow_right (by decide) (Nat.not_lt.mp hv)))
      rw [hzero, Bool.false_and]
  · intro hlow
    rw [← hlow]
    refine Nat.lt_pow_two_of_testBit _ fun v hv => ?_
    rw [← BitVec.getLsbD, getLsbD_and_lowBits, decide_eq_false (Nat.not_lt.mpr hv), Bool.and_false]

/-! ### Forced variables -/

variable {p q : Implicant} {v w : Nat} {row : Assignment}

theorem lt_of_forces (h : p.forces v = true) : v < 64 :=
  BitVec.lt_of_getLsbD h

theorem ext_bits (numVars : p.numVars = q.numVars) (forces : ∀ v, p.forces v = q.forces v)
    (value : ∀ v, p.value.getLsbD v = q.value.getLsbD v) : p = q := by
  obtain ⟨pc, pv, pn⟩ := p
  obtain ⟨qc, qv, qn⟩ := q
  obtain rfl : pc = qc := BitVec.eq_of_getLsbD_eq fun v _ => forces v
  obtain rfl : pv = qv := BitVec.eq_of_getLsbD_eq fun v _ => value v
  obtain rfl : pn = qn := numVars
  rfl

/-- **Well-formedness, variable by variable.** -/
theorem wellFormed_iff :
    p.WellFormed ↔ (∀ v, p.value.getLsbD v = true → p.forces v = true) ∧
      ∀ v, p.forces v = true → v < p.numVars := by
  rw [WellFormed, BitVec.eq_of_getLsbD_eq_iff, BitVec.eq_of_getLsbD_eq_iff]
  refine and_congr ⟨?_, ?_⟩ ⟨?_, ?_⟩
  · intro h v hv
    have := h v (BitVec.lt_of_getLsbD hv)
    rw [BitVec.getLsbD_and, hv, Bool.true_and] at this
    exact this
  · intro h v _
    rw [BitVec.getLsbD_and, Bool.and_eq_left_iff_imp]
    exact h v
  · intro h v hv
    have := h v (lt_of_forces hv)
    rw [BitVec.getLsbD_and, getLsbD_lowBits, Bool.and_eq_left_iff_imp] at this
    exact (of_decide_eq_true (this hv)).2
  · intro h v hlt
    rw [BitVec.getLsbD_and, getLsbD_lowBits, Bool.and_eq_left_iff_imp]
    exact fun hv => decide_eq_true ⟨hlt, h v hv⟩

theorem WellFormed.forces_of_value (wf : p.WellFormed) (h : p.value.getLsbD v = true) :
    p.forces v = true :=
  (wellFormed_iff.mp wf).1 v h

theorem WellFormed.value_of_open (wf : p.WellFormed) (isOpen : p.forces v = false) :
    p.value.getLsbD v = false := by
  rw [← Bool.not_eq_true]
  intro hvalue
  rw [wf.forces_of_value hvalue] at isOpen
  cases isOpen

theorem WellFormed.lt_numVars (wf : p.WellFormed) (h : p.forces v = true) : v < p.numVars :=
  (wellFormed_iff.mp wf).2 v h

/-- **What an implicant covers**: the rows with the forced value of every forced variable. -/
theorem WellFormed.covers_iff (wf : p.WellFormed) :
    p.covers row = true ↔
      ∀ v, p.forces v = true → row.getLsbD v = p.value.getLsbD v := by
  rw [covers, beq_iff_eq, BitVec.eq_of_getLsbD_eq_iff]
  constructor
  · intro h v hv
    have := h v (lt_of_forces hv)
    rwa [BitVec.getLsbD_and, show p.care.getLsbD v = true from hv, Bool.and_true] at this
  · intro h v _
    rw [BitVec.getLsbD_and]
    cases hv : p.care.getLsbD v with
    | true => rw [Bool.and_true]; exact h v hv
    | false =>
        rw [Bool.and_false]
        cases hvalue : p.value.getLsbD v with
        | false => rfl
        | true => exact absurd (wf.forces_of_value hvalue) (by rw [forces, hv]; decide)

/-- The row that has the value of the implicant is covered by it. -/
theorem WellFormed.covers_value (wf : p.WellFormed) : p.covers p.value = true :=
  wf.covers_iff.mpr fun _ _ => rfl

/-- Rows that agree on the forced variables are covered alike. -/
theorem WellFormed.covers_congr (wf : p.WellFormed) {row' : Assignment}
    (agree : ∀ v, p.forces v = true → row.getLsbD v = row'.getLsbD v) :
    p.covers row = p.covers row' := by
  rw [Bool.eq_iff_iff, wf.covers_iff, wf.covers_iff]
  exact forall₂_congr fun v hv => by rw [agree v hv]

/-! ### The forced variables as a set -/

def support (p : Implicant) : Finset Nat :=
  (Finset.range 64).filter fun v => p.forces v = true

@[simp] theorem mem_support : v ∈ p.support ↔ p.forces v = true := by
  rw [support, Finset.mem_filter, Finset.mem_range]
  exact and_iff_right_of_imp lt_of_forces

theorem card_support (p : Implicant) : p.support.card = p.literalCount := by
  have listed : p.support = ((List.range 64).filter p.forces).toFinset := by
    ext v
    rw [support, Finset.mem_filter, Finset.mem_range, List.mem_toFinset, List.mem_filter,
      List.mem_range]
  rw [listed, List.toFinset_card_of_nodup (List.nodup_range.filter _), literalCount,
    List.countP_eq_length_filter]

theorem WellFormed.support_subset (wf : p.WellFormed) : p.support ⊆ Finset.range p.numVars := by
  intro v hv
  exact Finset.mem_range.mpr (wf.lt_numVars (mem_support.mp hv))

theorem WellFormed.literalCount_le (wf : p.WellFormed) : p.literalCount ≤ p.numVars := by
  rw [← card_support, ← Finset.card_range p.numVars]
  exact Finset.card_le_card wf.support_subset

/-- An implicant with fewer literals than there are variables leaves one of them open. -/
theorem exists_open {n : Nat} (h : p.literalCount < n) : ∃ v < n, p.forces v = false := by
  by_contra none
  push Not at none
  simp only [Bool.not_eq_false] at none
  have full : Finset.range n ⊆ p.support := fun v hv =>
    mem_support.mpr (none v (Finset.mem_range.mp hv))
  have hcard := Finset.card_le_card full
  rw [Finset.card_range, card_support] at hcard
  omega

/-! ### Rows as implicants -/

theorem forces_ofRow (row : Assignment) (n v : Nat) :
    (ofRow row n).forces v = decide (v < 64 ∧ v < n) :=
  getLsbD_lowBits n v

theorem value_ofRow (row : Assignment) (n v : Nat) :
    (ofRow row n).value.getLsbD v = (row.getLsbD v && decide (v < n)) :=
  getLsbD_and_lowBits row n v

theorem wellFormed_ofRow (row : Assignment) (n : Nat) : (ofRow row n).WellFormed := by
  rw [wellFormed_iff]
  constructor
  · intro v hv
    have inWord := BitVec.lt_of_getLsbD hv
    rw [value_ofRow, Bool.and_eq_true, decide_eq_true_eq] at hv
    rw [forces_ofRow]
    exact decide_eq_true ⟨inWord, hv.2⟩
  · intro v hv
    rw [forces_ofRow] at hv
    exact (of_decide_eq_true hv).2

/-- A row as an implicant covers the rows that agree with it on the first variables. -/
theorem covers_ofRow {r : Assignment} {n : Nat} :
    (ofRow r n).covers row = true ↔ row &&& lowBits n = r &&& lowBits n := by
  rw [covers, beq_iff_eq]
  rfl

theorem literalCount_ofRow (row : Assignment) {n : Nat} (hn : n ≤ 64) :
    (ofRow row n).literalCount = n := by
  have all : (ofRow row n).support = Finset.range n := by
    ext v
    rw [mem_support, forces_ofRow, decide_eq_true_eq, Finset.mem_range]
    omega
  rw [← card_support, all, Finset.card_range]

/-- An implicant that forces all of its variables is a row. -/
theorem WellFormed.eq_ofRow (wf : p.WellFormed) (hn : p.numVars ≤ 64)
    (all : p.literalCount = p.numVars) : p = ofRow p.value p.numVars := by
  have full : p.support = Finset.range p.numVars := by
    refine Finset.eq_of_subset_of_card_le wf.support_subset ?_
    rw [Finset.card_range, card_support, all]
  have forces (v : Nat) : p.forces v = true ↔ v < p.numVars := by
    rw [← mem_support, full, Finset.mem_range]
  refine ext_bits rfl ?_ ?_
  · intro v
    rw [forces_ofRow, Bool.eq_iff_iff, forces v, decide_eq_true_eq]
    exact (and_iff_right_of_imp fun h => by omega).symm
  · intro v
    rw [value_ofRow]
    cases hv : p.value.getLsbD v with
    | false => rfl
    | true => simpa using (forces v).mp (wf.forces_of_value hv)

end Implicant
end FacetQuery
