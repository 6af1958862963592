import Mathlib.Data.Finset.Card
import FacetQuery.Proofs.Implicant.Neighbours
import FacetQuery.Tabulation

/-!
# Tabulation finds the prime implicants

An implicant of a function (`IsImplicant`) holds only where the function does, and is prime
(`IsPrime`) when no forced variable can be left open.  Neither notion mentions merging or
rounds; `mem_primeImplicants` says that tabulation finds exactly the prime implicants.

The invariant that carries the rounds is an exact one: after `k` rounds the current list
consists of *all* implicants with `k` open variables, whether prime or not (`IsRound`).
Exactness is needed in both directions.  That nothing else is listed makes the primes prime,
and that everything is listed makes a failed lookup mean that a variable cannot be opened:
opening it gives an implicant just when the implicant with the variable flipped is one too.
-/

namespace FacetQuery
namespace Tabulation

open Implicant

variable {rows : List Assignment} {numVars k : Nat} {p q : Implicant} {row : Assignment}

/-! ### Implicants of a function -/

/-- Where the function holds that is true in the given rows: bits beyond the number of variables
are ignored, both in the rows that are given and in the row that is asked about. -/
def InOnSet (rows : List Assignment) (numVars : Nat) (row : Assignment) : Prop :=
  ∃ r ∈ rows, row &&& lowBits numVars = r &&& lowBits numVars

/-- An implicant of the function that is true in the given rows. -/
structure IsImplicant (rows : List Assignment) (numVars : Nat) (p : Implicant) : Prop where
  wellFormed : p.WellFormed
  numVars_eq : p.numVars = numVars
  /-- It covers only rows in which the function is true. -/
  sound : ∀ row, p.covers row = true → InOnSet rows numVars row

structure IsPrime (rows : List Assignment) (numVars : Nat) (p : Implicant) : Prop where
  isImplicant : IsImplicant rows numVars p
  /-- No forced variable can be left open. -/
  maximal : ∀ v, p.forces v = true → ¬ IsImplicant rows numVars (p.leaveOpen v)

/-- Flipping a forced variable gives an implicant just when leaving it open does. -/
theorem IsImplicant.flip_iff (h : IsImplicant rows numVars p) {v : Nat}
    (hv : p.forces v = true) :
    IsImplicant rows numVars (p.flip v) ↔ IsImplicant rows numVars (p.leaveOpen v) := by
  constructor
  · intro hflip
    refine ⟨h.wellFormed.leaveOpen v, h.numVars_eq, fun row hrow => ?_⟩
    rcases (h.wellFormed.covers_leaveOpen_iff hv).mp hrow with hrow | hrow
    · exact h.sound row hrow
    · exact hflip.sound row hrow
  · intro hopen
    refine ⟨h.wellFormed.flip hv, h.numVars_eq, fun row hrow => hopen.sound row ?_⟩
    exact (h.wellFormed.covers_leaveOpen_iff hv).mpr (Or.inr hrow)

/-- Forcing an open variable to be false leaves an implicant. -/
theorem IsImplicant.forceFalse (h : IsImplicant rows numVars p) {v : Nat} (hv : v < numVars)
    (hword : v < 64) (isOpen : p.forces v = false) :
    IsImplicant rows numVars (p.forceFalse v) := by
  have wf := h.wellFormed.forceFalse (by rw [h.numVars_eq]; exact hv) hword
  refine ⟨wf, h.numVars_eq, fun row hrow => h.sound row ?_⟩
  rw [← h.wellFormed.leaveOpen_forceFalse hword isOpen]
  exact wf.covers_leaveOpen_of_covers v hrow

/-- **Every implicant extends to a prime one**, which has no more literals. -/
theorem IsImplicant.exists_isPrime (h : IsImplicant rows numVars p) :
    ∃ q, IsPrime rows numVars q ∧ q.literalCount ≤ p.literalCount ∧
      ∀ row, p.covers row = true → q.covers row = true := by
  induction hn : p.literalCount using Nat.strongRecOn generalizing p with
  | ind n ih =>
    by_cases maximal : ∀ v, p.forces v = true → ¬ IsImplicant rows numVars (p.leaveOpen v)
    · exact ⟨p, ⟨h, maximal⟩, hn.le, fun _ => id⟩
    · push Not at maximal
      obtain ⟨v, hv, hopen⟩ := maximal
      have fewer := literalCount_leaveOpen hv
      obtain ⟨q, hq, hle, hcovers⟩ := ih _ (by omega) hopen rfl
      refine ⟨q, hq, by omega, fun row hrow => hcovers row ?_⟩
      exact h.wellFormed.covers_leaveOpen_of_covers v hrow

/-! ### One round -/

theorem mem_distinct {ps : List Implicant} : p ∈ distinct ps ↔ p ∈ ps := by
  rw [distinct, Std.HashSet.mem_toList, Std.HashSet.mem_ofList, List.contains_iff_mem]

/-- What a walk over a list adds to a set, if every step adds something that depends on the member
of the list alone. -/
private theorem foldl_adds_iff {α β : Type} {step : α → β → α} {there : α → Prop}
    {adds : β → Prop} (hstep : ∀ a b, there (step a b) ↔ there a ∨ adds b) (l : List β) (a : α) :
    there (l.foldl step a) ↔ there a ∨ ∃ b ∈ l, adds b := by
  induction l generalizing a with
  | nil => simp
  | cons b l ih => rw [List.foldl_cons, ih, hstep, or_assoc, List.exists_mem_cons_iff]

/-- **The merges of a round**: a member that forces a variable to be false merges with the member
that forces it to be true instead. -/
private theorem mem_merges {current : List Implicant} (there : Merges → Prop)
    (adds : Implicant → Implicant × Implicant → Prop) (none : ¬ there ⟨∅, ∅⟩)
    (hadd : ∀ p found n, there (Merges.add p found n) ↔ there found ∨ adds p n) :
    there (merges current) ↔ ∃ p ∈ current, ∃ v < p.numVars, p.forcesFalse v = true ∧
      p.flip v ∈ current ∧ adds p (p.flip v, p.relax v) := by
  have hvisit (found : Merges) (p : Implicant) :
      there (found.visit (Std.HashSet.ofList current) p) ↔ there found ∨
        ∃ v < p.numVars, p.forcesFalse v = true ∧ p.flip v ∈ current ∧
          adds p (p.flip v, p.relax v) := by
    unfold Merges.visit
    rw [foldl_adds_iff (hadd p)]
    simp only [List.mem_filter, mem_upperNeighbours, Std.HashSet.contains_ofList,
      List.contains_iff_mem]
    refine or_congr_right ⟨?_, ?_⟩
    · rintro ⟨-, ⟨⟨v, hlt, hfalse, rfl⟩, hmem⟩, h⟩
      exact ⟨v, hlt, hfalse, hmem, h⟩
    · rintro ⟨v, hlt, hfalse, hmem, h⟩
      exact ⟨_, ⟨⟨v, hlt, hfalse, rfl⟩, hmem⟩, h⟩
  unfold merges
  rw [foldl_adds_iff hvisit, or_iff_right none]

/-- What the members of a round merge into. -/
theorem mem_next_round {current : List Implicant} :
    q ∈ (round current).next ↔ ∃ p ∈ current, ∃ v < p.numVars, p.forcesFalse v = true ∧
      p.flip v ∈ current ∧ p.relax v = q := by
  unfold round
  rw [Std.HashSet.mem_toList]
  refine mem_merges (fun found => q ∈ found.merged) (fun _ n => n.2 = q)
    Std.HashSet.not_mem_empty fun p found n => ?_
  unfold Merges.add
  rw [Std.HashSet.mem_insert, beq_iff_eq, or_comm]

/-- The members that merge with another one, as the member that finds the merge or as its upper
neighbour. -/
theorem mem_combined_merges {current : List Implicant} :
    p ∈ (merges current).combined ↔ ∃ q ∈ current, ∃ v < q.numVars, q.forcesFalse v = true ∧
      q.flip v ∈ current ∧ (p = q ∨ p = q.flip v) := by
  refine mem_merges (fun found => p ∈ found.combined) (fun q n => p = q ∨ p = n.1)
    Std.HashSet.not_mem_empty fun q found n => ?_
  unfold Merges.add
  rw [Std.HashSet.mem_insert, Std.HashSet.mem_insert, beq_iff_eq, beq_iff_eq, eq_comm (a := n.1),
    eq_comm (a := q)]
  tauto

/-- **A member is combined when it has a neighbour in the round**, above it or below it: a
neighbour below finds the merge in place of the member. -/
theorem combined_iff {current : List Implicant} (hp : p ∈ current) :
    p ∈ (merges current).combined ↔ ∃ v < p.numVars, p.forces v = true ∧ p.flip v ∈ current := by
  rw [mem_combined_merges]
  constructor
  · rintro ⟨q, hq, v, hlt, hfalse, hflip, rfl | rfl⟩
    · exact ⟨v, hlt, (forcesFalse_iff.mp hfalse).1, hflip⟩
    · refine ⟨v, hlt, (forcesFalse_iff.mp hfalse).1, ?_⟩
      rw [Implicant.flip_flip]
      exact hq
  · rintro ⟨v, hlt, hforces, hflip⟩
    cases hvalue : p.value.getLsbD v with
    | false => exact ⟨p, hp, v, hlt, forcesFalse_iff.mpr ⟨hforces, hvalue⟩, hflip, Or.inl rfl⟩
    | true =>
        have hback : (p.flip v).flip v = p := Implicant.flip_flip p v
        have hfalse : (p.flip v).forcesFalse v = true := by
          refine forcesFalse_iff.mpr ⟨hforces, ?_⟩
          rw [value_flip p (lt_of_forces hforces), hvalue, decide_eq_true rfl]
          rfl
        refine ⟨p.flip v, hflip, v, hlt, hfalse, ?_, Or.inr hback.symm⟩
        rw [hback]
        exact hp

theorem mem_primes_iff_combined {current : List Implicant} :
    p ∈ (round current).primes ↔ p ∈ current ∧ p ∉ (merges current).combined := by
  unfold round
  rw [List.mem_filter, Bool.not_eq_true', ← Bool.not_eq_true, Std.HashSet.contains_iff_mem]

/-- The members of a round that have no partner in it. -/
theorem mem_primes_round {current : List Implicant} :
    p ∈ (round current).primes ↔
      p ∈ current ∧ ∀ v < p.numVars, p.forces v = true → p.flip v ∉ current := by
  rw [mem_primes_iff_combined]
  refine and_congr_right fun hp => ?_
  rw [combined_iff hp]
  simp only [not_exists, not_and]

/-! ### All rounds -/

/-- The list of a round: all implicants with so many open variables, and nothing else. -/
def IsRound (rows : List Assignment) (numVars k : Nat) (current : List Implicant) : Prop :=
  ∀ p, p ∈ current ↔ IsImplicant rows numVars p ∧ p.literalCount + k = numVars

/-- The rows themselves are the implicants without open variables. -/
theorem isRound_start (hn : numVars ≤ 64) :
    IsRound rows numVars 0 (distinct (rows.map (Implicant.ofRow · numVars))) := by
  intro p
  rw [mem_distinct, List.mem_map]
  constructor
  · rintro ⟨r, hr, rfl⟩
    refine ⟨⟨wellFormed_ofRow r numVars, rfl, fun row hrow => ⟨r, hr, covers_ofRow.mp hrow⟩⟩, ?_⟩
    exact literalCount_ofRow r hn
  · rintro ⟨h, hcount⟩
    obtain ⟨r, hr, agree⟩ := h.sound p.value h.wellFormed.covers_value
    have isRow := h.wellFormed.eq_ofRow (h.numVars_eq.trans_le hn)
      (hcount.trans h.numVars_eq.symm)
    refine ⟨r, hr, ?_⟩
    rw [isRow, h.numVars_eq, Implicant.ofRow, Implicant.ofRow, ← agree]

/-- One more round opens one more variable. -/
theorem IsRound.next (hn : numVars ≤ 64) {current : List Implicant}
    (h : IsRound rows numVars k current) : IsRound rows numVars (k + 1) (round current).next := by
  intro q
  rw [mem_next_round]
  constructor
  · rintro ⟨p, hp, v, hlt, hfalse, hflip, rfl⟩
    obtain ⟨himp, hcount⟩ := (h p).mp hp
    have hv := (forcesFalse_iff.mp hfalse).1
    rw [relax_eq_leaveOpen hfalse]
    refine ⟨(himp.flip_iff hv).mp ((h _).mp hflip).1, ?_⟩
    have := literalCount_leaveOpen hv
    omega
  · rintro ⟨himp, hcount⟩
    -- Some variable of `q` is open, and the two values that it can be given are the neighbours.
    obtain ⟨v, hlt, isOpen⟩ : ∃ v < numVars, q.forces v = false := exists_open (by omega)
    have hword : v < 64 := by omega
    have lower := himp.forceFalse hlt hword isOpen
    have back := himp.wellFormed.leaveOpen_forceFalse hword isOpen
    have hforces : (q.forceFalse v).forces v = true := by
      rw [forces_forceFalse q hword, decide_eq_true rfl, Bool.or_true]
    have hfalse : (q.forceFalse v).forcesFalse v = true :=
      forcesFalse_iff.mpr ⟨hforces, himp.wellFormed.value_of_open isOpen⟩
    have count := literalCount_leaveOpen hforces
    rw [back] at count
    refine ⟨q.forceFalse v, (h _).mpr ⟨lower, by omega⟩, v, ?_, hfalse, ?_, ?_⟩
    · rw [numVars_forceFalse, himp.numVars_eq]
      exact hlt
    · refine (h _).mpr ⟨(lower.flip_iff hforces).mpr (by rw [back]; exact himp), ?_⟩
      rw [literalCount_flip]
      omega
    · rw [relax_eq_leaveOpen hfalse, back]

/-- The members of a round that find no partner are its prime implicants. -/
theorem IsRound.mem_primes {current : List Implicant} (h : IsRound rows numVars k current) :
    p ∈ (round current).primes ↔ IsPrime rows numVars p ∧ p.literalCount + k = numVars := by
  rw [mem_primes_round, h p]
  constructor
  · rintro ⟨⟨himp, hcount⟩, lonely⟩
    refine ⟨⟨himp, fun v hv hopen => ?_⟩, hcount⟩
    refine lonely v (himp.wellFormed.lt_numVars hv) hv ((h _).mpr ⟨?_, hcount⟩)
    exact (himp.flip_iff hv).mpr hopen
  · rintro ⟨hprime, hcount⟩
    refine ⟨⟨hprime.isImplicant, hcount⟩, fun v _ hv hflip => hprime.maximal v hv ?_⟩
    exact (hprime.isImplicant.flip_iff hv).mp ((h _).mp hflip).1

@[simp] theorem primesWithin_nil (rounds : Nat) : primesWithin rounds [] = [] := by
  cases rounds <;> rfl

/-- Stopping at an empty round changes nothing. -/
theorem primesWithin_succ (rounds : Nat) (current : List Implicant) :
    primesWithin (rounds + 1) current =
      (round current).primes ++ primesWithin rounds (round current).next := by
  cases current with
  | nil =>
      have noNext : (round []).next = [] := by
        rw [List.eq_nil_iff_forall_not_mem]
        intro q hq
        obtain ⟨p, hp, -⟩ := mem_next_round.mp hq
        cases hp
      rw [primesWithin_nil, noNext, primesWithin_nil]
      rfl
  | cons p rest => rfl

/-- What the rounds find that are left, when there are enough of them. -/
theorem IsRound.mem_primesWithin (hn : numVars ≤ 64) {rounds : Nat} {current : List Implicant}
    (h : IsRound rows numVars k current) (enough : rounds + k = numVars + 1) :
    p ∈ primesWithin rounds current ↔
      IsPrime rows numVars p ∧ p.literalCount + k ≤ numVars := by
  induction rounds generalizing k current with
  | zero =>
      simp only [primesWithin, List.not_mem_nil, false_iff, not_and]
      omega
  | succ rounds ih =>
      rw [primesWithin_succ, List.mem_append, h.mem_primes,
        ih (h.next hn) (by omega), ← and_or_left]
      refine and_congr_right fun _ => ?_
      omega

/-- **Tabulation finds exactly the prime implicants.** -/
theorem mem_primeImplicants (hn : numVars ≤ 64) :
    p ∈ primeImplicants rows numVars ↔ IsPrime rows numVars p := by
  rw [primeImplicants, List.mem_mergeSort, (isRound_start hn).mem_primesWithin hn rfl]
  refine and_iff_left_of_imp fun h => ?_
  have := h.isImplicant.wellFormed.literalCount_le
  rw [h.isImplicant.numVars_eq] at this
  exact this

/-- Every row in which the function is true is covered by a prime implicant. -/
theorem exists_prime_covers (hn : numVars ≤ 64) {r : Assignment} (hr : r ∈ rows) :
    ∃ q ∈ primeImplicants rows numVars, q.covers r = true := by
  have isImplicant : IsImplicant rows numVars (ofRow r numVars) :=
    ⟨wellFormed_ofRow r numVars, rfl, fun row hrow => ⟨r, hr, covers_ofRow.mp hrow⟩⟩
  obtain ⟨q, hq, -, hcovers⟩ := isImplicant.exists_isPrime
  exact ⟨q, (mem_primeImplicants hn).mpr hq, hcovers r (covers_ofRow.mpr rfl)⟩

end Tabulation
end FacetQuery
