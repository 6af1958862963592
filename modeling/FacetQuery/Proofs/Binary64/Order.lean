import FacetQuery.Binary64

/-!
# The two orders of doubles

Doubles are ordered twice: by size (`orderKey`), which is what numbers are compared by, and in the
total order of all patterns (`totalKey`, `TotallyBefore`), which is what they are listed by.  The two
agree on all numbers but one pair: the two zeros are the same size and stand next to each other in
the total order.  NaNs have a place in the total order only.  What follows for the doubles listed on
one side of a number is said by `totalKey_above_iff` and `totalKey_below_iff`.

Rounding never gives a NaN (`isNaN_ofScaledRatio`), so a NaN is always one that somebody has put in.
-/

namespace FacetQuery
namespace Binary64

variable {x y : Binary64}

def negativeZero : Binary64 :=
  ofMagnitude true 0

def positiveZero : Binary64 :=
  ofMagnitude false 0

/-- Two zeros of different sign: they are the same number, and different doubles. -/
def OppositeZeros (x y : Binary64) : Prop :=
  x.magnitude = 0 ∧ y.magnitude = 0 ∧ x.isNegative ≠ y.isNegative

/-! ### Sign and magnitude -/

/-- A double is its sign and its magnitude. -/
theorem eq_of_parts (hsign : x.isNegative = y.isNegative) (hmagnitude : x.magnitude = y.magnitude) :
    x = y := by
  obtain ⟨a⟩ := x
  obtain ⟨b⟩ := y
  have hbits : signBit = 9223372036854775808 := rfl
  have ha := a.toNat_lt
  have hb := b.toNat_lt
  rw [isNegative, isNegative, decide_eq_decide, hbits] at hsign
  rw [magnitude, magnitude, hbits] at hmagnitude
  dsimp only at hsign hmagnitude
  refine congrArg mk (UInt64.toNat_inj.mp ?_)
  omega

theorem eq_negativeZero_iff : x = negativeZero ↔ x.isNegative = true ∧ x.magnitude = 0 := by
  constructor
  · rintro rfl
    decide
  · exact fun h => eq_of_parts h.1 h.2

theorem eq_positiveZero_iff : x = positiveZero ↔ x.isNegative = false ∧ x.magnitude = 0 := by
  constructor
  · rintro rfl
    decide
  · exact fun h => eq_of_parts h.1 h.2

/-- Zeros of different sign are the negative and the positive one. -/
theorem oppositeZeros_iff : x.OppositeZeros y ↔
    x = negativeZero ∧ y = positiveZero ∨ x = positiveZero ∧ y = negativeZero := by
  rw [OppositeZeros]
  simp only [eq_negativeZero_iff, eq_positiveZero_iff]
  cases x.isNegative <;> cases y.isNegative <;> simp

/-- **The total order of doubles**: a negative pattern comes before one that is not negative, and of
two patterns of the same sign the one with the smaller magnitude comes first, or the one with the
greater magnitude if they are negative. -/
def TotallyBefore (x y : Binary64) : Prop :=
  (x.isNegative = true ∧ y.isNegative = false) ∨
    (x.isNegative = false ∧ y.isNegative = false ∧ x.magnitude < y.magnitude) ∨
    (x.isNegative = true ∧ y.isNegative = true ∧ y.magnitude < x.magnitude)

theorem totalKey_lt_iff : x.totalKey < y.totalKey ↔ x.TotallyBefore y := by
  simp only [totalKey, TotallyBefore]
  cases hx : x.isNegative <;> cases hy : y.isNegative <;> simp <;> omega

/-- Every pattern has a place of its own. -/
theorem totalKey_inj : x.totalKey = y.totalKey ↔ x = y := by
  refine ⟨fun h => ?_, congrArg totalKey⟩
  simp only [totalKey] at h
  cases hx : x.isNegative <;> cases hy : y.isNegative <;>
    simp only [hx, hy, Bool.false_eq_true, if_true, if_false] at h
  · exact eq_of_parts (hx.trans hy.symm) (by omega)
  · omega
  · omega
  · exact eq_of_parts (hx.trans hy.symm) (by omega)

/-! ### Rounding gives numbers -/

theorem magnitude_ofMagnitude {negative : Bool} {magnitude : Nat} (h : magnitude < signBit) :
    (ofMagnitude negative magnitude).magnitude = magnitude := by
  have hsign : signBit = 9223372036854775808 := rfl
  rw [hsign] at h
  rw [ofMagnitude, Binary64.magnitude, UInt64.toNat_ofNat', hsign]
  cases negative with
  | false =>
      rw [if_neg Bool.false_ne_true]
      omega
  | true =>
      rw [if_pos rfl]
      omega

/-- **Rounding never gives a NaN.** -/
theorem isNaN_ofScaledRatio (negative : Bool) (num den : Nat) :
    (ofScaledRatio negative num den).isNaN = false := by
  have hle : nearestMagnitude num den ≤ infinityMagnitude := Nat.min_le_right _ _
  have hlt : infinityMagnitude < signBit := by decide
  rw [ofScaledRatio, isNaN, magnitude_ofMagnitude (Nat.lt_of_le_of_lt hle hlt),
    decide_eq_false_iff_not]
  exact Nat.not_lt.mpr hle

theorem isNaN_ofInt (i : Int) : (ofInt i).isNaN = false :=
  isNaN_ofScaledRatio _ _ _

theorem isNaN_ofDecimal (negative : Bool) (coefficient : Nat) (exponent : Int) :
    (ofDecimal negative coefficient exponent).isNaN = false := by
  cases exponent with
  | ofNat k => exact isNaN_ofScaledRatio _ _ _
  | negSucc k => exact isNaN_ofScaledRatio _ _ _

/-! ### Listing and comparing -/

/-- **Which doubles are listed above a number**: those above it, a positive NaN, and the zero
without a sign if the number is the zero with a sign.  The reverse of this is missed. -/
theorem totalKey_above_iff {isIncluded : Bool} (hy : y.isNaN = false) :
    y.totalKey < x.totalKey ∨ y.totalKey = x.totalKey ∧ isIncluded = true ↔
      (x.isNaN = true ∧ x.isNegative = false) ∨ (x = positiveZero ∧ y = negativeZero) ∨
        (x.isNaN = false ∧
          (y.orderKey < x.orderKey ∨ y.orderKey = x.orderKey ∧ isIncluded = true)) ∧
          ¬ (x = negativeZero ∧ y = positiveZero) := by
  simp only [eq_negativeZero_iff, eq_positiveZero_iff, totalKey, orderKey, isNaN,
    decide_eq_true_eq, decide_eq_false_iff_not] at hy ⊢
  cases x.isNegative <;> cases y.isNegative <;> cases isIncluded <;> simp <;> omega

/-- **Which doubles are listed below a number**: those below it, a negative NaN, and the zero with a
sign if the number is the zero without a sign.  The reverse of this is missed. -/
theorem totalKey_below_iff {isIncluded : Bool} (hy : y.isNaN = false) :
    x.totalKey < y.totalKey ∨ x.totalKey = y.totalKey ∧ isIncluded = true ↔
      (x.isNaN = true ∧ x.isNegative = true) ∨ (x = negativeZero ∧ y = positiveZero) ∨
        (x.isNaN = false ∧
          (x.orderKey < y.orderKey ∨ x.orderKey = y.orderKey ∧ isIncluded = true)) ∧
          ¬ (x = positiveZero ∧ y = negativeZero) := by
  simp only [eq_negativeZero_iff, eq_positiveZero_iff, totalKey, orderKey, isNaN,
    decide_eq_true_eq, decide_eq_false_iff_not] at hy ⊢
  cases x.isNegative <;> cases y.isNegative <;> cases isIncluded <;> simp <;> omega

end Binary64
end FacetQuery
