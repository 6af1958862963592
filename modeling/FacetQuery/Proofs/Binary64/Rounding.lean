import Mathlib.Data.Nat.Log
import FacetQuery.Proofs.Binary64.Order

/-!
# Rounding to doubles

A number of multiples of the smallest double is rounded by choosing the exponent that leaves 53
significant bits and rounding the quotient (`Binary64.nearestMagnitude`).  Three facts about this are
all that comparisons need:

* rounding keeps the order (`nearestMagnitude_mono`), although the exponent changes on the way;
* what a double stands for is rounded to this double (`nearestMagnitude_scaledOfMagnitude`), so
  different finite doubles stand for different numbers;
* a number of at most 53 bits is not changed (`scaledOfMagnitude_nearestMagnitude`).

### What is load-bearing

The quotient has at least `2 ^ 52` units where the exponent is not `0`, and never more than `2 ^ 53`
(`binade_le`, `lt_two_binades`).  So the largest quotient of one exponent is the smallest one of the
next, which is why adding quotient and exponent gives consecutive magnitudes.
-/

namespace FacetQuery

/-! ### Rounding a quotient -/

section Quotient

variable {a b q d : Nat}

theorem roundHalfEven_mul (q : Nat) (hd : 0 < d) : roundHalfEven (q * d) d = q := by
  simp [roundHalfEven, Nat.mul_div_cancel q hd, hd]

/-- **Rounding a quotient keeps the order.** -/
theorem roundHalfEven_mono (h : a ≤ b) : roundHalfEven a d ≤ roundHalfEven b d := by
  rcases Nat.lt_or_eq_of_le (Nat.div_le_div_right h : a / d ≤ b / d) with hlt | heq
  · have ha := roundHalfEven_eq_or a d
    have hb := roundHalfEven_eq_or b d
    omega
  · have hrest : a % d ≤ b % d := by
      have ha := Nat.div_add_mod a d
      have hb := Nat.div_add_mod b d
      rw [heq] at ha
      omega
    simp only [roundHalfEven, heq]
    split_ifs <;> omega

theorem le_roundHalfEven (hd : 0 < d) (h : q * d ≤ a) : q ≤ roundHalfEven a d :=
  (roundHalfEven_mul q hd).symm.le.trans (roundHalfEven_mono h)

theorem roundHalfEven_le (hd : 0 < d) (h : a ≤ q * d) : roundHalfEven a d ≤ q :=
  (roundHalfEven_mono h).trans (roundHalfEven_mul q hd).le

end Quotient

namespace Binary64

variable {n m e q : Nat}

/-! ### The exponent -/

/-- The exponent that leaves 53 significant bits. -/
def exponentOf (n : Nat) : Nat :=
  n.log2 + 1 - 53

theorem nearestMagnitude_one (n : Nat) :
    nearestMagnitude n 1 =
      min (exponentOf n * binade + roundHalfEven n (Nat.pow 2 (exponentOf n)))
        infinityMagnitude := by
  rw [nearestMagnitude, Nat.div_one, Nat.one_mul]
  rfl

private theorem pow_add (k e : Nat) : Nat.pow 2 (k + e) = Nat.pow 2 k * Nat.pow 2 e :=
  Nat.pow_add 2 k e

/-- There are at most 53 significant bits. -/
theorem lt_two_binades (n : Nat) : n < 2 * binade * Nat.pow 2 (exponentOf n) := by
  have hbits : n.log2 + 1 ≤ 53 + exponentOf n := by
    rw [exponentOf]
    omega
  calc n < 2 ^ (n.log2 + 1) := Nat.lt_log2_self
    _ ≤ 2 ^ (53 + exponentOf n) := Nat.pow_le_pow_right (by decide) hbits
    _ = 2 * binade * Nat.pow 2 (exponentOf n) := pow_add 53 _

/-- There are exactly 53 significant bits, if any bit is cut off. -/
theorem binade_le (h : 0 < exponentOf n) : binade * Nat.pow 2 (exponentOf n) ≤ n := by
  have hbits : n.log2 = 52 + exponentOf n := by
    rw [exponentOf] at h ⊢
    omega
  have nonzero : n ≠ 0 := by
    rintro rfl
    cases h
  calc binade * Nat.pow 2 (exponentOf n) = 2 ^ n.log2 := by rw [hbits]; exact (pow_add 52 _).symm
    _ ≤ n := Nat.log2_self_le nonzero

/-! ### Rounding -/

/-- The quotient never takes more than the two binades of its exponent. -/
theorem roundHalfEven_le_two_binades (n : Nat) :
    roundHalfEven n (Nat.pow 2 (exponentOf n)) ≤ 2 * binade :=
  roundHalfEven_le (Nat.two_pow_pos _) (lt_two_binades n).le

/-- **Rounding keeps the order.** -/
theorem nearestMagnitude_mono (h : n ≤ m) : nearestMagnitude n 1 ≤ nearestMagnitude m 1 := by
  rw [nearestMagnitude_one, nearestMagnitude_one]
  refine Nat.le_min.mpr ⟨(Nat.min_le_left _ _).trans ?_, Nat.min_le_right _ _⟩
  rcases Nat.lt_trichotomy (exponentOf n) (exponentOf m) with hlt | heq | hgt
  · -- The largest quotient of one exponent is the smallest one of the next.
    have hn := roundHalfEven_le_two_binades n
    have hm := le_roundHalfEven (Nat.two_pow_pos _) (binade_le (Nat.zero_lt_of_lt hlt))
    have hstep : exponentOf n * binade + binade ≤ exponentOf m * binade :=
      (Nat.succ_mul _ _).symm.trans_le (Nat.mul_le_mul_right _ hlt)
    change binade ≤ roundHalfEven m (Nat.pow 2 (exponentOf m)) at hm
    omega
  · rw [heq]
    exact Nat.add_le_add_left (roundHalfEven_mono h) _
  · exfalso
    have hpow : 2 * Nat.pow 2 (exponentOf m) ≤ Nat.pow 2 (exponentOf n) :=
      Nat.pow_succ'.symm.trans_le (Nat.pow_le_pow_right Nat.two_pos hgt)
    have hbelow : n < n :=
      calc n ≤ m := h
        _ < 2 * binade * Nat.pow 2 (exponentOf m) := lt_two_binades m
        _ = binade * (2 * Nat.pow 2 (exponentOf m)) := by rw [Nat.mul_comm 2, Nat.mul_assoc]
        _ ≤ binade * Nat.pow 2 (exponentOf n) := Nat.mul_le_mul_left _ hpow
        _ ≤ n := binade_le (Nat.zero_lt_of_lt hgt)
    exact Nat.lt_irrefl n hbelow

/-! ### What doubles stand for -/

/-- An exponent, and a quotient of 53 bits, all of which are used where the exponent could be
lower. -/
structure Canonical (e q : Nat) : Prop where
  full : e = 0 ∨ binade ≤ q
  small : q < 2 * binade

/-- The exponent of a product of a canonical quotient. -/
theorem Canonical.exponentOf_mul (h : Canonical e q) : exponentOf (q * Nat.pow 2 e) = e := by
  have positive : 0 < Nat.pow 2 e := Nat.two_pow_pos e
  rcases Nat.eq_zero_or_pos q with rfl | hpos
  · rcases h.full with rfl | hfull
    · rfl
    · exact absurd hfull (by decide)
  · have nonzero : q * Nat.pow 2 e ≠ 0 := (Nat.mul_pos hpos positive).ne'
    have upper : q * Nat.pow 2 e < 2 ^ (53 + e) :=
      (Nat.mul_lt_mul_of_pos_right h.small positive).trans_eq (pow_add 53 e).symm
    have hlog : (q * Nat.pow 2 e).log2 < 53 + e := (Nat.log2_lt nonzero).mpr upper
    rw [exponentOf]
    rcases h.full with rfl | hfull
    · omega
    · have lower : 2 ^ (52 + e) ≤ q * Nat.pow 2 e :=
        (pow_add 52 e).trans_le (Nat.mul_le_mul_right _ hfull)
      have hlog' : 52 + e ≤ (q * Nat.pow 2 e).log2 := (Nat.le_log2 nonzero).mpr lower
      omega

/-- Every magnitude has an exponent and a quotient. -/
theorem exists_canonical (m : Nat) : ∃ e q, Canonical e q ∧ m = e * binade + q := by
  have positive : 0 < binade := by decide
  by_cases hm : m < binade
  · exact ⟨0, m, ⟨Or.inl rfl, by omega⟩, by omega⟩
  · have hmod := Nat.mod_lt m positive
    have hdiv := Nat.div_add_mod' m binade
    have hpos : 0 < m / binade := Nat.div_pos (Nat.not_lt.mp hm) positive
    have hsplit : m / binade * binade = (m / binade - 1) * binade + binade := by
      rw [← Nat.succ_mul, Nat.succ_eq_add_one, Nat.sub_add_cancel hpos]
    exact ⟨m / binade - 1, binade + m % binade, ⟨Or.inr (by omega), by omega⟩, by omega⟩

/-- **What a magnitude stands for** is the quotient under its exponent. -/
theorem Canonical.scaledOfMagnitude (h : Canonical e q) :
    scaledOfMagnitude (e * binade + q) = q * Nat.pow 2 e := by
  have positive : 0 < binade := by decide
  rw [Binary64.scaledOfMagnitude]
  rcases Nat.lt_or_ge q binade with hq | hq
  · obtain rfl : e = 0 := h.full.resolve_right (by omega)
    rw [Nat.zero_mul, Nat.zero_add, if_pos hq]
    exact (Nat.mul_one q).symm
  · have hrest : q - binade < binade := by
      have := h.small
      omega
    have hsplit : e * binade + q = binade * (e + 1) + (q - binade) := by
      rw [Nat.mul_comm, Nat.mul_succ]
      omega
    have hdiv : (e * binade + q) / binade = e + 1 := by
      rw [hsplit, Nat.mul_add_div positive, Nat.div_eq_of_lt hrest, Nat.add_zero]
    have hmod : (e * binade + q) % binade = q - binade := by
      rw [hsplit, Nat.mul_add_mod, Nat.mod_eq_of_lt hrest]
    rw [if_neg (by omega), hdiv, hmod, Nat.add_sub_cancel, Nat.add_sub_cancel' hq]

/-- A quotient under its exponent is rounded to its magnitude. -/
theorem Canonical.nearestMagnitude (h : Canonical e q)
    (hle : e * binade + q ≤ infinityMagnitude) :
    nearestMagnitude (q * Nat.pow 2 e) 1 = e * binade + q := by
  have positive : 0 < Nat.pow 2 e := Nat.two_pow_pos e
  rw [nearestMagnitude_one, h.exponentOf_mul, roundHalfEven_mul q positive]
  exact Nat.min_eq_left hle

/-- **What a double stands for is rounded to this double.** -/
theorem nearestMagnitude_scaledOfMagnitude (h : m ≤ infinityMagnitude) :
    nearestMagnitude (scaledOfMagnitude m) 1 = m := by
  obtain ⟨e, q, canonical, rfl⟩ := exists_canonical m
  rw [canonical.scaledOfMagnitude, canonical.nearestMagnitude h]

/-! ### Numbers of few bits -/

/-- A number of at most 53 bits under an exponent has a canonical form. -/
theorem exists_canonical_mul (t : Nat) {c : Nat} (h : c ≤ 2 * binade) :
    ∃ e q, Canonical e q ∧ e ≤ t + 1 ∧ q * Nat.pow 2 e = c * Nat.pow 2 t := by
  -- The bits are shifted up as far as the exponent allows.
  induction t generalizing c with
  | zero =>
      rcases Nat.lt_or_eq_of_le h with hlt | rfl
      · exact ⟨0, c, ⟨Or.inl rfl, hlt⟩, by omega, rfl⟩
      · exact ⟨1, binade, ⟨Or.inr (Nat.le_refl _), by decide⟩, by omega, by decide⟩
  | succ t ih =>
      have double : Nat.pow 2 (t + 1) = 2 * Nat.pow 2 t := Nat.pow_succ'
      rcases Nat.lt_or_ge c binade with hsmall | hfull
      · obtain ⟨e, q, canonical, he, hq⟩ := ih (c := 2 * c) (by omega)
        refine ⟨e, q, canonical, by omega, ?_⟩
        rw [hq, double, Nat.mul_left_comm, Nat.mul_assoc]
      · rcases Nat.lt_or_eq_of_le h with hlt | rfl
        · exact ⟨t + 1, c, ⟨Or.inr hfull, hlt⟩, by omega, rfl⟩
        · refine ⟨t + 2, binade, ⟨Or.inr (Nat.le_refl _), by decide⟩, by omega, ?_⟩
          have double' : Nat.pow 2 (t + 2) = 2 * Nat.pow 2 (t + 1) := Nat.pow_succ'
          rw [double', Nat.mul_left_comm, Nat.mul_assoc]

/-- **A number of at most 53 bits is kept**, unless it is too large for any double. -/
theorem scaledOfMagnitude_nearestMagnitude {c t : Nat} (hc : c ≤ 2 * binade) (ht : t ≤ 2044) :
    scaledOfMagnitude (nearestMagnitude (c * Nat.pow 2 t) 1) = c * Nat.pow 2 t := by
  obtain ⟨e, q, canonical, he, hq⟩ := exists_canonical_mul t hc
  have below : e * binade + q ≤ infinityMagnitude := by
    have hsmall := canonical.small
    have hexponent : e * binade ≤ 2045 * binade := Nat.mul_le_mul_right _ (by omega)
    rw [infinityMagnitude]
    omega
  rw [← hq, canonical.nearestMagnitude below, canonical.scaledOfMagnitude]

end Binary64
end FacetQuery
