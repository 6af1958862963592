import Mathlib.Order.Compare
import FacetQuery.Proofs.PrimeImplicants

/-!
# Tabulation stops by itself and lists the prime implicants in order

Which implicants tabulation finds is said by `mem_primeImplicants`.  This module adds how it comes
by them, and says the same of the rows of a truth table instead of all assignments
(`primeImplicants_exact`).

* **The loop stops by itself.**  `Rounds` is the loop without a bound on the number of rounds.
  The list of round `k` consists of the implicants with `k` open variables, of which there are
  none once `k` exceeds the number of variables (`IsRound.exists_rounds`).  Hence the bound that
  the loop is run with cuts nothing off (`Rounds.primesWithin_eq`).
* **Nothing is found twice.**  Within a round this is what the hash sets are for, and two rounds
  have no implicant in common, because the number of open variables tells them apart
  (`IsRound.nodup_primesWithin`).
* **The order is strict** for this reason: implicants that compare as equal are equal
  (`Implicant.eq_of_compare`).
-/

namespace FacetQuery

/-! ### The order of implicants -/

namespace Implicant

variable {p q : Implicant}

theorem compare_eq :
    Implicant.compare = compareLex (compareOn fun p => p.care.toNat)
      (compareLex (compareOn fun p => p.value.toNat) (compareOn Implicant.numVars)) :=
  rfl

instance : Std.TransCmp Implicant.compare := by
  rw [compare_eq]
  infer_instance

theorem eq_of_compare (h : p.compare q = .eq) : p = q := by
  unfold Implicant.compare at h
  rw [Ordering.then_eq_eq, Ordering.then_eq_eq] at h
  obtain ⟨hcare, hvalue, hnumVars⟩ := h
  obtain ⟨care, value, numVars⟩ := p
  obtain rfl : care = q.care := BitVec.eq_of_toNat_eq (Nat.compare_eq_eq.mp hcare)
  obtain rfl : value = q.value := BitVec.eq_of_toNat_eq (Nat.compare_eq_eq.mp hvalue)
  obtain rfl : numVars = q.numVars := Nat.compare_eq_eq.mp hnumVars
  rfl

theorem le_eq_isLE (p q : Implicant) : p.le q = (p.compare q).isLE := by
  unfold le
  cases p.compare q <;> rfl

/-- Sorting implicants that are listed once each gives a strictly ascending list. -/
theorem pairwise_mergeSort {ps : List Implicant} (nodup : ps.Nodup) :
    (ps.mergeSort le).Pairwise fun p q => p.compare q = .lt := by
  have htrans (p q r : Implicant) (hpq : p.le q = true) (hqr : q.le r = true) :
      p.le r = true := by
    rw [le_eq_isLE] at *
    exact Std.TransCmp.isLE_trans hpq hqr
  have htotal (p q : Implicant) : (p.le q || q.le p) = true := by
    have hswap : q.compare p = (p.compare q).swap := Std.OrientedCmp.eq_swap
    rw [le_eq_isLE, le_eq_isLE, hswap]
    cases p.compare q <;> rfl
  have hsorted := List.pairwise_mergeSort htrans htotal ps
  have hnodup : (ps.mergeSort le).Nodup := (List.mergeSort_perm ps le).nodup_iff.mpr nodup
  refine (hsorted.and hnodup).imp fun {p q} ⟨hle, hne⟩ => ?_
  rw [le_eq_isLE] at hle
  cases h : p.compare q with
  | lt => rfl
  | eq => exact absurd (eq_of_compare h) hne
  | gt =>
      rw [h] at hle
      cases hle

end Implicant

namespace Tabulation

open Implicant

variable {rows : List Assignment} {numVars k n bound : Nat} {current found : List Implicant}
  {p : Implicant}

/-! ### The loop of rounds -/

/-- The loop of rounds, started with a list, stops by itself after so many rounds: the list that
comes out of the last one is empty, and what has been found are the primes of all of them. -/
inductive Rounds : List Implicant → Nat → List Implicant → Prop where
  | stop : Rounds [] 0 []
  | again {current found : List Implicant} {n : Nat} (pending : current ≠ [])
      (rest : Rounds (round current).next n found) :
      Rounds current (n + 1) ((round current).primes ++ found)

/-- **A bound on the rounds that is large enough changes nothing.** -/
theorem Rounds.primesWithin_eq (h : Rounds current n found) (enough : n ≤ bound) :
    primesWithin bound current = found := by
  induction h generalizing bound with
  | stop => exact primesWithin_nil bound
  | again pending rest ih =>
      obtain ⟨m, rfl⟩ : ∃ m, bound = m + 1 := ⟨bound - 1, by omega⟩
      rw [primesWithin_succ, ih (by omega)]

/-- No implicant leaves more variables open than there are. -/
theorem IsRound.eq_nil (h : IsRound rows numVars k current) (beyond : numVars < k) :
    current = [] := by
  rw [List.eq_nil_iff_forall_not_mem]
  intro p hp
  have hcount := ((h p).mp hp).2
  omega

/-- **The loop stops by itself**, in the round after the one without forced variables at the
latest. -/
theorem IsRound.exists_rounds (hn : numVars ≤ 64) (h : IsRound rows numVars k current)
    (hk : k ≤ numVars + 1) : ∃ n found, n + k ≤ numVars + 1 ∧ Rounds current n found := by
  induction hleft : numVars + 1 - k generalizing k current with
  | zero =>
      have hnil : current = [] := h.eq_nil (by omega)
      rw [hnil]
      exact ⟨0, [], by omega, .stop⟩
  | succ left ih =>
      by_cases pending : current = []
      · rw [pending]
        exact ⟨0, [], by omega, .stop⟩
      · obtain ⟨n, found, hle, rest⟩ := ih (h.next hn) (by omega) (by omega)
        exact ⟨n + 1, _, by omega, .again pending rest⟩

/-! ### Nothing is found twice -/

theorem nodup_toList (known : Std.HashSet Implicant) : known.toList.Nodup :=
  known.distinct_toList.imp fun hne => ne_of_beq_false hne

/-- The primes of a round are told apart from all later ones by the number of open variables. -/
theorem IsRound.nodup_primesWithin (hn : numVars ≤ 64) (h : IsRound rows numVars k current)
    (nodup : current.Nodup) (enough : bound + k = numVars + 1) :
    (primesWithin bound current).Nodup := by
  induction bound generalizing k current with
  | zero => exact List.nodup_nil
  | succ bound ih =>
      have hnext : IsRound rows numVars (k + 1) (round current).next := h.next hn
      have hlater : (primesWithin bound (round current).next).Nodup :=
        ih hnext (nodup_toList _) (by omega)
      rw [primesWithin_succ]
      refine List.nodup_append.mpr ⟨nodup.filter _, hlater, ?_⟩
      rintro p hp q hq rfl
      have hnow := (h.mem_primes.mp hp).2
      have hthen := ((hnext.mem_primesWithin hn (by omega)).mp hq).2
      omega

/-- **The prime implicants are listed in strictly ascending order.** -/
theorem pairwise_primeImplicants (rows : List Assignment) (hn : numVars ≤ 64) :
    (primeImplicants rows numVars).Pairwise fun p q => p.compare q = .lt := by
  unfold primeImplicants
  refine pairwise_mergeSort ?_
  exact (isRound_start hn).nodup_primesWithin hn (nodup_toList _) rfl

/-! ### Implicants by the rows of the truth table -/

/-- An implicant over the first variables that covers some rows of the truth table, all of them
rows in which the function is true. -/
structure CoversTrueRows (rows : List Assignment) (numVars : Nat) (p : Implicant) : Prop where
  wellFormed : p.WellFormed
  numVars_eq : p.numVars = numVars
  /-- Bits beyond the number of variables are ignored in the rows that are given. -/
  sound : ∀ row : Assignment, row.toNat < Nat.pow 2 numVars → p.covers row = true →
    ∃ r ∈ rows, row = r &&& lowBits numVars
  nonempty : ∃ row : Assignment, row.toNat < Nat.pow 2 numVars ∧ p.covers row = true

/-- **The rows of the truth table say everything about an implicant**: beyond the variables it
forces nothing. -/
theorem coversTrueRows_iff :
    CoversTrueRows rows numVars p ↔ IsImplicant rows numVars p := by
  have inTable (row : Assignment) : (row &&& lowBits numVars).toNat < Nat.pow 2 numVars := by
    rw [toNat_lt_iff, BitVec.and_assoc, BitVec.and_self]
  constructor
  · intro h
    refine ⟨h.wellFormed, h.numVars_eq, fun row hrow => ?_⟩
    have hsame : p.covers (row &&& lowBits numVars) = p.covers row := by
      refine h.wellFormed.covers_congr fun v hv => ?_
      have hlt : v < numVars := h.numVars_eq ▸ h.wellFormed.lt_numVars hv
      rw [getLsbD_and_lowBits, decide_eq_true hlt, Bool.and_true]
    obtain ⟨r, hr, heq⟩ := h.sound _ (inTable row) (hsame.trans hrow)
    exact ⟨r, hr, heq⟩
  · intro h
    refine ⟨h.wellFormed, h.numVars_eq, fun row hlt hrow => ?_, p.value, ?_,
      h.wellFormed.covers_value⟩
    · obtain ⟨r, hr, heq⟩ := h.sound row hrow
      rw [toNat_lt_iff.mp hlt] at heq
      exact ⟨r, hr, heq⟩
    · rw [toNat_lt_iff]
      refine BitVec.eq_of_getLsbD_eq fun v _ => ?_
      rw [getLsbD_and_lowBits]
      cases hvalue : p.value.getLsbD v with
      | false => rfl
      | true =>
          have hforces := h.wellFormed.forces_of_value hvalue
          have hlt : v < numVars := h.numVars_eq ▸ h.wellFormed.lt_numVars hforces
          rw [decide_eq_true hlt]
          rfl

/-! ### Tabulation -/

/-- **Tabulation finds exactly the prime implicants.**  Started with the rows, the loop of rounds
stops by itself after at most one round more than there are variables.  What it has found is
listed in strictly ascending order, each implicant once, and consists of the implicants that
cover nothing but true rows and cease to do so when any one of their forced variables is left
open. -/
theorem primeImplicants_exact (rows : List Assignment) (hn : numVars ≤ 64) :
    (∃ n found, n ≤ numVars + 1 ∧ Rounds (distinct (rows.map (ofRow · numVars))) n found ∧
        primeImplicants rows numVars = found.mergeSort le) ∧
      (primeImplicants rows numVars).Pairwise (fun p q => p.compare q = .lt) ∧
      (primeImplicants rows numVars).Nodup ∧
      ∀ p, p ∈ primeImplicants rows numVars ↔ CoversTrueRows rows numVars p ∧
        ∀ v, p.forces v = true → ¬ CoversTrueRows rows numVars (p.leaveOpen v) := by
  have hstart : IsRound rows numVars 0 (distinct (rows.map (ofRow · numVars))) := isRound_start hn
  have hsorted := pairwise_primeImplicants rows hn
  refine ⟨?_, hsorted, ?_, fun p => ?_⟩
  · obtain ⟨n, found, hle, hrounds⟩ := hstart.exists_rounds hn (Nat.zero_le _)
    refine ⟨n, found, hle, hrounds, ?_⟩
    rw [primeImplicants, hrounds.primesWithin_eq hle]
  · refine hsorted.imp fun {p q} hlt heq => ?_
    have hself : q.compare q = .eq := Std.ReflCmp.compare_self
    rw [heq, hself] at hlt
    cases hlt
  · rw [mem_primeImplicants hn, coversTrueRows_iff]
    constructor
    · intro h
      refine ⟨h.isImplicant, fun v hv hopen => ?_⟩
      exact h.maximal v hv (coversTrueRows_iff.mp hopen)
    · rintro ⟨himp, hmaximal⟩
      exact ⟨himp, fun v hv hopen => hmaximal v hv (coversTrueRows_iff.mpr hopen)⟩

/-- Three rows of two variables, one of them given twice and one with a bit beyond the
variables. -/
theorem primeImplicants_exact_of_repeated_row :
    let rows : List Assignment := [3, 1, 6, 1]
    2 ≤ 64 ∧
      (∃ n found, n ≤ 2 + 1 ∧ Rounds (distinct (rows.map (ofRow · 2))) n found ∧
        primeImplicants rows 2 = found.mergeSort le) ∧
      (primeImplicants rows 2).Pairwise (fun p q => p.compare q = .lt) ∧
      (primeImplicants rows 2).Nodup ∧
      ∀ p, p ∈ primeImplicants rows 2 ↔ CoversTrueRows rows 2 p ∧
        ∀ v, p.forces v = true → ¬ CoversTrueRows rows 2 (p.leaveOpen v) :=
  ⟨by decide, primeImplicants_exact _ (by decide)⟩

end Tabulation
end FacetQuery
