import FacetQuery.Proofs.Binary64.Rounding

/-!
# Integers as doubles

An integer is compared and searched as the double nearest to it (`Binary64.ofInt`).  This keeps the
order (`orderKey_ofInt_le`), so the only thing that is lost is the difference between integers that
are nearest to the same double.  No difference is lost between integers one of which is less than
`2 ^ 53`, or neither of which is greater (`ofInt_inj`).

In the other direction, a finite double is given by the number it stands for, the two zeros apart
(`scaled_inj`).  So a double that stands for an integer is the one nearest to it, unless it is the
negative zero (`ofInt_eq_of_scaled`).
-/

namespace FacetQuery
namespace Binary64

variable {x y : Binary64} {i j : Int}

/-! ### Sign and magnitude -/

theorem isNegative_ofMagnitude {negative : Bool} {magnitude : Nat} (h : magnitude < signBit) :
    (ofMagnitude negative magnitude).isNegative = negative := by
  have hsign : signBit = 9223372036854775808 := rfl
  rw [hsign] at h
  rw [ofMagnitude, isNegative, UInt64.toNat_ofNat', hsign]
  cases negative with
  | false =>
      rw [if_neg Bool.false_ne_true, decide_eq_false_iff_not]
      omega
  | true =>
      rw [if_pos rfl, decide_eq_true_iff]
      omega

def integerMagnitude (n : Nat) : Nat :=
  nearestMagnitude (n * scaledOne) 1

theorem integerMagnitude_le_infinity (n : Nat) : integerMagnitude n ≤ infinityMagnitude :=
  Nat.min_le_right _ _

theorem integerMagnitude_lt_signBit (n : Nat) : integerMagnitude n < signBit :=
  Nat.lt_of_le_of_lt (integerMagnitude_le_infinity n) (by decide)

theorem integerMagnitude_mono {n m : Nat} (h : n ≤ m) : integerMagnitude n ≤ integerMagnitude m :=
  nearestMagnitude_mono (Nat.mul_le_mul_right _ h)

/-- The number one is a power of two with room above it. -/
theorem exists_scaledOne : ∃ t ≤ 2044, scaledOne = Nat.pow 2 t :=
  ⟨1074, by decide, by decide +kernel⟩

theorem scaledOne_pos : 0 < scaledOne := by
  obtain ⟨t, -, hone⟩ := exists_scaledOne
  rw [hone]
  exact Nat.two_pow_pos t

theorem scaledOne_pos' : (0 : Int) < scaledOne :=
  Int.ofNat_lt.mpr scaledOne_pos

theorem integerMagnitude_zero : integerMagnitude 0 = 0 := by
  rw [integerMagnitude, Nat.zero_mul]
  decide

theorem integerMagnitude_pos {n : Nat} (h : 0 < n) : 0 < integerMagnitude n := by
  have hone : nearestMagnitude 1 1 = 1 := by decide
  exact hone.symm.trans_le (nearestMagnitude_mono (Nat.mul_pos h scaledOne_pos))

/-- A number of at most 53 bits is kept. -/
theorem scaledOfMagnitude_integerMagnitude {n : Nat} (h : n ≤ Nat.pow 2 53) :
    scaledOfMagnitude (integerMagnitude n) = n * scaledOne := by
  obtain ⟨t, ht, hone⟩ := exists_scaledOne
  rw [integerMagnitude, hone]
  exact scaledOfMagnitude_nearestMagnitude h ht

theorem magnitude_ofInt (i : Int) : (ofInt i).magnitude = integerMagnitude i.natAbs :=
  magnitude_ofMagnitude (integerMagnitude_lt_signBit i.natAbs)

theorem isNegative_ofInt (i : Int) : (ofInt i).isNegative = decide (i < 0) :=
  isNegative_ofMagnitude (integerMagnitude_lt_signBit i.natAbs)

/-- The nearest double is a zero only for zero, which is not the negative one. -/
theorem ofInt_ne_negativeZero (i : Int) : ofInt i ≠ negativeZero := by
  intro h
  obtain ⟨hsign, hmagnitude⟩ := eq_negativeZero_iff.mp h
  rw [magnitude_ofInt] at hmagnitude
  have zero : i = 0 := by
    by_contra hi
    exact (integerMagnitude_pos (Int.natAbs_pos.mpr hi)).ne' hmagnitude
  rw [isNegative_ofInt, zero] at hsign
  exact absurd hsign (by decide)

/-! ### Order -/

theorem orderKey_ofInt (i : Int) :
    (ofInt i).orderKey =
      if i < 0 then -(integerMagnitude i.natAbs : Int) else integerMagnitude i.natAbs := by
  rw [orderKey, isNegative_ofInt, magnitude_ofInt]
  simp only [decide_eq_true_eq]

/-- **The nearest doubles are in the order of the integers.** -/
theorem orderKey_ofInt_le (h : i ≤ j) : (ofInt i).orderKey ≤ (ofInt j).orderKey := by
  rw [orderKey_ofInt, orderKey_ofInt]
  by_cases hi : i < 0
  · by_cases hj : j < 0
    · have := integerMagnitude_mono (n := j.natAbs) (m := i.natAbs) (by omega)
      rw [if_pos hi, if_pos hj]
      omega
    · rw [if_pos hi, if_neg hj]
      omega
  · have := integerMagnitude_mono (n := i.natAbs) (m := j.natAbs) (by omega)
    rw [if_neg hi, if_neg (by omega)]
    omega

/-- Nearest doubles of the same size are the same. -/
theorem orderKey_ofInt_inj : (ofInt i).orderKey = (ofInt j).orderKey ↔ ofInt i = ofInt j := by
  refine ⟨fun h => ?_, congrArg orderKey⟩
  have key := h
  rw [orderKey_ofInt, orderKey_ofInt] at key
  refine eq_of_parts ?_ ?_
  · rw [isNegative_ofInt, isNegative_ofInt, decide_eq_decide]
    by_cases hi : i < 0
    · have := integerMagnitude_pos (n := i.natAbs) (by omega)
      rw [if_pos hi] at key
      split at key <;> omega
    · by_cases hj : j < 0
      · have := integerMagnitude_pos (n := j.natAbs) (by omega)
        rw [if_neg hi, if_pos hj] at key
        omega
      · omega
  · rw [magnitude_ofInt, magnitude_ofInt]
    split at key <;> split at key <;> omega

/-- The nearest doubles compare as the integers do, if they are different. -/
theorem orderKey_ofInt_lt :
    (ofInt i).orderKey < (ofInt j).orderKey ↔ i < j ∧ ofInt i ≠ ofInt j := by
  rw [Ne, ← orderKey_ofInt_inj]
  constructor
  · intro h
    refine ⟨?_, h.ne⟩
    by_contra hle
    exact absurd (orderKey_ofInt_le (Int.not_lt.mp hle)) (Int.not_le.mpr h)
  · rintro ⟨h, hne⟩
    exact lt_of_le_of_ne (orderKey_ofInt_le h.le) hne

/-! ### The number that a double stands for -/

theorem isFinite_iff : x.isFinite = true ↔ x.magnitude < infinityMagnitude := by
  rw [isFinite, decide_eq_true_iff]

theorem natAbs_scaled (x : Binary64) : x.scaled.natAbs = x.scaledMagnitude := by
  rw [scaled]
  split <;> omega

/-- The absolute value of a finite double is rounded to its magnitude. -/
theorem magnitude_of_isFinite (h : x.isFinite = true) :
    x.magnitude = nearestMagnitude x.scaled.natAbs 1 := by
  rw [natAbs_scaled, scaledMagnitude, nearestMagnitude_scaledOfMagnitude (isFinite_iff.mp h).le]

/-- The sign of a finite double other than a zero. -/
theorem isNegative_iff (h : x.isFinite = true) (hzero : x.magnitude ≠ 0) :
    x.isNegative = decide (x.scaled < 0) := by
  have nonzero : x.scaled.natAbs ≠ 0 := by
    intro hscaled
    rw [magnitude_of_isFinite h, hscaled] at hzero
    exact hzero rfl
  rw [natAbs_scaled] at nonzero
  rw [scaled]
  cases x.isNegative with
  | false =>
      rw [if_neg Bool.false_ne_true, eq_comm, decide_eq_false_iff_not]
      omega
  | true =>
      rw [if_pos rfl, eq_comm, decide_eq_true_iff]
      omega

/-- **Finite doubles that stand for the same number** are the same or the two zeros. -/
theorem scaled_inj (hx : x.isFinite = true) (hy : y.isFinite = true) :
    x.scaled = y.scaled ↔ x = y ∨ x.OppositeZeros y := by
  constructor
  · intro h
    have hmagnitude : x.magnitude = y.magnitude := by
      rw [magnitude_of_isFinite hx, h, magnitude_of_isFinite hy]
    by_cases hsign : x.isNegative = y.isNegative
    · exact Or.inl (eq_of_parts hsign hmagnitude)
    · by_cases hzero : x.magnitude = 0
      · exact Or.inr ⟨hzero, hmagnitude ▸ hzero, hsign⟩
      · rw [isNegative_iff hx hzero, isNegative_iff hy (hmagnitude ▸ hzero), h] at hsign
        exact absurd rfl hsign
  · have zero {z : Binary64} (h : z.magnitude = 0) : z.scaled = 0 := by
      rw [scaled, scaledMagnitude, h]
      split <;> rfl
    rintro (rfl | ⟨hx, hy, -⟩)
    · rfl
    · rw [zero hx, zero hy]

/-- **A double that stands for an integer** is the one nearest to it, the negative zero apart. -/
theorem ofInt_eq_of_scaled (hx : x.isFinite = true) (hzero : x ≠ negativeZero)
    (h : x.scaled = i * scaledOne) : ofInt i = x := by
  have hmagnitude : x.magnitude = integerMagnitude i.natAbs := by
    rw [magnitude_of_isFinite hx, h, Int.natAbs_mul, Int.natAbs_natCast]
    rfl
  refine eq_of_parts ?_ ((magnitude_ofInt i).trans hmagnitude.symm)
  rw [isNegative_ofInt]
  by_cases hi : i = 0
  · subst hi
    have hpositive : x.isNegative ≠ true := fun hsign =>
      hzero (eq_of_parts hsign (hmagnitude.trans integerMagnitude_zero))
    exact (Bool.not_eq_true _ ▸ hpositive : x.isNegative = false).symm
  · have hpos := integerMagnitude_pos (Int.natAbs_pos.mpr hi)
    rw [isNegative_iff hx (by omega), h, decide_eq_decide]
    exact ⟨fun hi => Int.mul_neg_of_neg_of_pos hi scaledOne_pos',
      fun hi => Int.neg_of_mul_neg_left hi scaledOne_pos'⟩

/-- **An integer of at most 53 bits is kept.** -/
theorem scaled_ofInt (h : i.natAbs ≤ Nat.pow 2 53) : (ofInt i).scaled = i * scaledOne := by
  rw [scaled, scaledMagnitude, isNegative_ofInt, magnitude_ofInt,
    scaledOfMagnitude_integerMagnitude h, Int.natCast_mul]
  by_cases hi : i < 0
  · have habs : (i.natAbs : Int) = -i := by omega
    rw [if_pos (decide_eq_true hi), habs, Int.neg_mul, Int.neg_neg]
  · have habs : (i.natAbs : Int) = i := by omega
    rw [if_neg (by simpa using hi), habs]

theorem mul_scaledOne_inj : i * scaledOne = j * scaledOne ↔ i = j :=
  Int.mul_eq_mul_right_iff scaledOne_pos'.ne'

/-! ### Which integers are told apart -/

/-- One of two integers is less than `2 ^ 53`, or neither is greater. -/
def ToldApart (i j : Int) : Prop :=
  i.natAbs < Nat.pow 2 53 ∨ j.natAbs < Nat.pow 2 53 ∨
    i.natAbs ≤ Nat.pow 2 53 ∧ j.natAbs ≤ Nat.pow 2 53

theorem eq_of_ofInt_eq (hi : i.natAbs ≤ Nat.pow 2 53) (hj : j.natAbs ≤ Nat.pow 2 53)
    (h : ofInt i = ofInt j) : i = j := by
  rw [← mul_scaledOne_inj, ← scaled_ofInt hi, ← scaled_ofInt hj, h]

/-- Between integers with the same nearest double, all have it. -/
theorem ofInt_eq_of_between {k : Int} (hik : i ≤ k) (hkj : k ≤ j) (h : ofInt i = ofInt j) :
    ofInt i = ofInt k := by
  have low := orderKey_ofInt_le hik
  have high := orderKey_ofInt_le hkj
  rw [← h] at high
  exact orderKey_ofInt_inj.mp (Int.le_antisymm low high)

/-- An integer less than `2 ^ 53` is told from all others. -/
theorem eq_of_ofInt_eq_of_lt (hi : i.natAbs < Nat.pow 2 53) (h : ofInt i = ofInt j) : i = j := by
  have hbits : Nat.pow 2 53 = 9007199254740992 := rfl
  rw [hbits] at hi
  by_cases hj : j.natAbs ≤ Nat.pow 2 53
  · exact eq_of_ofInt_eq (by omega) hj h
  · -- Otherwise `2 ^ 53` or its opposite lies between the two.
    exfalso
    rw [hbits] at hj
    rcases lt_or_ge i j with hlt | hge
    · have := eq_of_ofInt_eq (j := 9007199254740992) (by omega) (by decide)
        (ofInt_eq_of_between (by omega) (by omega) h)
      omega
    · have := eq_of_ofInt_eq (j := -9007199254740992) (by omega) (by decide)
        (h.trans (ofInt_eq_of_between (by omega) (by omega) h.symm))
      omega

/-- **Integers that are told apart have different nearest doubles.** -/
theorem ofInt_inj (h : ToldApart i j) : ofInt i = ofInt j ↔ i = j := by
  refine ⟨fun heq => ?_, congrArg ofInt⟩
  rcases h with hi | hj | ⟨hi, hj⟩
  · exact eq_of_ofInt_eq_of_lt hi heq
  · exact (eq_of_ofInt_eq_of_lt hj heq.symm).symm
  · exact eq_of_ofInt_eq hi hj heq

/-! ### Doubles as integers -/

/-- The whole part of a double without fractional part is the number it stands for. -/
theorem signed_whole (h : x.scaledMagnitude % scaledOne = 0) :
    (if x.isNegative then -((x.scaledMagnitude / scaledOne : Nat) : Int)
      else (x.scaledMagnitude / scaledOne : Nat)) * scaledOne = x.scaled := by
  have whole : ((x.scaledMagnitude / scaledOne : Nat) : Int) * scaledOne = x.scaledMagnitude := by
    rw [← Int.natCast_mul, Nat.div_mul_cancel (Nat.dvd_of_mod_eq_zero h)]
  rw [scaled]
  cases x.isNegative with
  | false => exact whole
  | true => exact (Int.neg_mul _ _).trans (congrArg Neg.neg whole)

/-- **A finite double is read as an integer** when it stands for one. -/
theorem toInt?_eq_some_iff {k : Int} :
    x.toInt? = some k ↔ x.isFinite = true ∧ x.scaled = k * scaledOne := by
  simp only [toInt?, Bool.and_eq_true, beq_iff_eq]
  by_cases h : x.isFinite = true ∧ x.scaledMagnitude % scaledOne = 0
  · rw [if_pos h, Option.some.injEq, ← signed_whole h.2, mul_scaledOne_inj]
    exact (and_iff_right h.1).symm
  · rw [if_neg h]
    refine iff_of_false (Option.some_ne_none k).symm ?_
    rintro ⟨hx, hk⟩
    refine h ⟨hx, ?_⟩
    rw [← natAbs_scaled, hk, Int.natAbs_mul, Int.natAbs_natCast, Nat.mul_mod_left]

end Binary64
end FacetQuery
