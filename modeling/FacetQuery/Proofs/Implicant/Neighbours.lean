import FacetQuery.Proofs.Implicant.Bits

/-!
# Opening and flipping one variable

Two implicants that differ in the value of one forced variable cover together what one of
them covers when that variable is left open (`covers_leaveOpen_iff`).  This is all that
merging rests on.

`leaveOpen` opens any forced variable.  What two neighbours merge into (`relax`) is the special
case of a variable that is forced to be false, in which only one of the two words has to
change; `forceFalse` is the way back.
-/

namespace FacetQuery
namespace Implicant

variable {p : Implicant} {v w : Nat} {row : Assignment}

def leaveOpen (p : Implicant) (v : Nat) : Implicant :=
  { p with care := p.care &&& ~~~bit v, value := p.value &&& ~~~bit v }

/-- The implicant that forces a variable to be false and is otherwise the same, for a variable
that is open. -/
def forceFalse (p : Implicant) (v : Nat) : Implicant :=
  { p with care := p.care ||| bit v }

/-! ### Variable by variable -/

private theorem getLsbD_and_not_bit (x : BitVec 64) (v w : Nat) :
    (x &&& ~~~bit v).getLsbD w = (x.getLsbD w && decide (v ≠ w)) := by
  rw [BitVec.getLsbD_and, BitVec.getLsbD_not, getLsbD_bit]
  by_cases hw : w < 64
  · by_cases hvw : v = w
    · subst hvw; simp [hw]
    · simp [hw, hvw]
  · simp [BitVec.getLsbD_of_ge x w (by omega)]

private theorem getLsbD_xor_bit (x : BitVec 64) (hv : v < 64) (w : Nat) :
    (x ^^^ bit v).getLsbD w = (x.getLsbD w ^^ decide (v = w)) := by
  rw [BitVec.getLsbD_xor, getLsbD_bit]
  simp [hv]

@[simp] theorem numVars_leaveOpen : (p.leaveOpen v).numVars = p.numVars := rfl

@[simp] theorem numVars_flip : (p.flip v).numVars = p.numVars := rfl

@[simp] theorem numVars_forceFalse : (p.forceFalse v).numVars = p.numVars := rfl

theorem forces_leaveOpen (p : Implicant) (v w : Nat) :
    (p.leaveOpen v).forces w = (p.forces w && decide (v ≠ w)) :=
  getLsbD_and_not_bit p.care v w

theorem value_leaveOpen (p : Implicant) (v w : Nat) :
    (p.leaveOpen v).value.getLsbD w = (p.value.getLsbD w && decide (v ≠ w)) :=
  getLsbD_and_not_bit p.value v w

@[simp] theorem forces_flip (p : Implicant) (v w : Nat) : (p.flip v).forces w = p.forces w := rfl

theorem value_flip (p : Implicant) (hv : v < 64) (w : Nat) :
    (p.flip v).value.getLsbD w = (p.value.getLsbD w ^^ decide (v = w)) :=
  getLsbD_xor_bit p.value hv w

theorem flip_flip (p : Implicant) (v : Nat) : (p.flip v).flip v = p := by
  have hvalue : p.value ^^^ bit v ^^^ bit v = p.value := by
    rw [BitVec.xor_assoc, BitVec.xor_self, BitVec.xor_zero]
  unfold flip
  rw [hvalue]

theorem forces_forceFalse (p : Implicant) (hv : v < 64) (w : Nat) :
    (p.forceFalse v).forces w = (p.forces w || decide (v = w)) := by
  rw [forces, forceFalse, BitVec.getLsbD_or, getLsbD_bit]
  simp [hv, forces]

@[simp] theorem value_forceFalse (p : Implicant) (v : Nat) : (p.forceFalse v).value = p.value := rfl

theorem forcesFalse_iff :
    p.forcesFalse v = true ↔ p.forces v = true ∧ p.value.getLsbD v = false := by
  rw [forcesFalse, Bool.and_eq_true, Bool.not_eq_true']

/-! ### Well-formedness -/

theorem WellFormed.leaveOpen (wf : p.WellFormed) (v : Nat) : (p.leaveOpen v).WellFormed := by
  rw [wellFormed_iff]
  constructor
  · intro w hw
    rw [value_leaveOpen, Bool.and_eq_true] at hw
    rw [forces_leaveOpen, wf.forces_of_value hw.1, hw.2]
    rfl
  · intro w hw
    rw [forces_leaveOpen, Bool.and_eq_true] at hw
    exact wf.lt_numVars hw.1

theorem WellFormed.flip (wf : p.WellFormed) (hv : p.forces v = true) : (p.flip v).WellFormed := by
  rw [wellFormed_iff]
  constructor
  · intro w hw
    rw [value_flip p (lt_of_forces hv)] at hw
    by_cases hvw : v = w
    · subst hvw; exact hv
    · rw [decide_eq_false hvw, Bool.xor_false] at hw
      exact wf.forces_of_value hw
  · intro w hw
    exact wf.lt_numVars hw

theorem WellFormed.forceFalse (wf : p.WellFormed) (hv : v < p.numVars) (hword : v < 64) :
    (p.forceFalse v).WellFormed := by
  rw [wellFormed_iff]
  constructor
  · intro w hw
    rw [forces_forceFalse p hword, wf.forces_of_value hw, Bool.true_or]
  · intro w hw
    rw [forces_forceFalse p hword, Bool.or_eq_true, decide_eq_true_eq] at hw
    rcases hw with hw | rfl
    · exact wf.lt_numVars hw
    · exact hv

/-! ### Coverage -/

/-- An implicant that leaves more open covers more. -/
theorem WellFormed.covers_leaveOpen_of_covers (wf : p.WellFormed) (v : Nat)
    (h : p.covers row = true) : (p.leaveOpen v).covers row = true := by
  rw [(wf.leaveOpen v).covers_iff]
  intro w hw
  rw [forces_leaveOpen, Bool.and_eq_true] at hw
  rw [value_leaveOpen, hw.2, Bool.and_true]
  exact wf.covers_iff.mp h w hw.1

/-- **What two neighbours cover together**: the rows that one of them covers with the variable
left open. -/
theorem WellFormed.covers_leaveOpen_iff (wf : p.WellFormed) (hv : p.forces v = true) :
    (p.leaveOpen v).covers row = true ↔ p.covers row = true ∨ (p.flip v).covers row = true := by
  have hword := lt_of_forces hv
  rw [(wf.leaveOpen v).covers_iff, wf.covers_iff, (wf.flip hv).covers_iff]
  constructor
  · intro h
    -- Away from the variable both neighbours ask for the same; at it, one of them is content.
    have away (w : Nat) (hvw : v ≠ w) (hw : p.forces w = true) :
        row.getLsbD w = p.value.getLsbD w := by
      have := h w (by rw [forces_leaveOpen, hw, decide_eq_true hvw]; rfl)
      rwa [value_leaveOpen, decide_eq_true hvw, Bool.and_true] at this
    by_cases same : row.getLsbD v = p.value.getLsbD v
    · left
      intro w hw
      by_cases hvw : v = w
      · subst hvw; exact same
      · exact away w hvw hw
    · right
      intro w hw
      rw [value_flip p hword]
      by_cases hvw : v = w
      · subst hvw
        rw [decide_eq_true rfl, Bool.xor_true]
        exact Bool.eq_not.mpr same
      · rw [decide_eq_false hvw, Bool.xor_false]
        exact away w hvw hw
  · intro h w hw
    rw [forces_leaveOpen, Bool.and_eq_true, decide_eq_true_eq] at hw
    rw [value_leaveOpen, decide_eq_true hw.2, Bool.and_true]
    rcases h with h | h
    · exact h w hw.1
    · have := h w hw.1
      rwa [value_flip p hword, decide_eq_false hw.2, Bool.xor_false] at this

/-! ### Counting -/

theorem support_leaveOpen (p : Implicant) (v : Nat) :
    (p.leaveOpen v).support = p.support.erase v := by
  ext w
  rw [mem_support, forces_leaveOpen, Bool.and_eq_true, decide_eq_true_eq, Finset.mem_erase,
    mem_support, and_comm, ne_comm]

theorem literalCount_leaveOpen (hv : p.forces v = true) :
    (p.leaveOpen v).literalCount + 1 = p.literalCount := by
  rw [← card_support, ← card_support, support_leaveOpen]
  exact Finset.card_erase_add_one (mem_support.mpr hv)

theorem literalCount_flip (p : Implicant) (v : Nat) : (p.flip v).literalCount = p.literalCount :=
  rfl

/-- Forcing an open variable and opening it again changes nothing. -/
theorem WellFormed.leaveOpen_forceFalse (wf : p.WellFormed) (hword : v < 64)
    (isOpen : p.forces v = false) : (p.forceFalse v).leaveOpen v = p := by
  refine ext_bits rfl ?_ ?_
  · intro w
    rw [forces_leaveOpen, forces_forceFalse p hword]
    by_cases hvw : v = w
    · subst hvw; simp [isOpen]
    · simp [hvw]
  · intro w
    rw [value_leaveOpen, value_forceFalse]
    by_cases hvw : v = w
    · subst hvw
      simp [wf.value_of_open isOpen]
    · simp [hvw]

/-- **What neighbours merge into** is the lower one of them with the variable left open. -/
theorem relax_eq_leaveOpen (hv : p.forcesFalse v = true) : p.relax v = p.leaveOpen v := by
  obtain ⟨hforces, hvalue⟩ := forcesFalse_iff.mp hv
  have hword := lt_of_forces hforces
  refine ext_bits rfl ?_ ?_
  · intro w
    rw [forces_leaveOpen, forces, relax, getLsbD_xor_bit p.care hword, ← forces]
    by_cases hvw : v = w
    · subst hvw; simp [hforces]
    · simp [hvw]
  · intro w
    rw [value_leaveOpen, relax]
    by_cases hvw : v = w
    · subst hvw; simp [hvalue]
    · simp [hvw]

/-- The upper neighbours of an implicant, one for each variable that it forces to be false. -/
theorem mem_upperNeighbours {n : Implicant × Implicant} :
    n ∈ p.upperNeighbours ↔
      ∃ v < p.numVars, p.forcesFalse v = true ∧ (p.flip v, p.relax v) = n := by
  unfold upperNeighbours
  rw [List.mem_map]
  simp only [List.mem_filter, List.mem_range, and_assoc]

end Implicant
end FacetQuery
