import FacetQuery.Proofs.Cover.Selection

/-!
# The chosen cover is better than every other one

Sets of positions that cover the same rows are compared by size, then by the number of literals,
and then in lexicographic order (`Better`).  `select_best` says that the chosen set is strictly
better than every other covering set.

The choice is made for the rows that the essential positions leave uncovered, and only among
minimal sets.  That this decides the comparison of whole covers as well is not obvious for the
last criterion, because the essential positions are mixed in between the others.  It holds because
the lexicographic order of two sets of the same size depends on the least position alone that
is in one of them only (`lt_iff_firstDifferenceIn`), and a position that is added to both sets is
never the one (`union_lt_union`).
-/

namespace FacetQuery

/-! ### The lexicographic order of sets of positions -/

namespace PositionSet

variable {s t e : PositionSet} {i j : Nat}

theorem compareMembers_eq_lt_iff : compareMembers s t = .lt ↔ s < t := by
  induction s generalizing t with
  | nil =>
      cases t with
      | nil => exact iff_of_false nofun (List.lt_irrefl [])
      | cons j t => exact iff_of_true rfl (List.nil_lt_cons j t)
  | cons i s ih =>
      cases t with
      | nil => exact iff_of_false nofun (List.not_lt_nil _)
      | cons j t =>
          rw [compareMembers, Ordering.then_eq_lt, Nat.compare_eq_lt, Nat.compare_eq_eq, ih,
            List.cons_lt_cons_iff]

/-- The least position that is in one of the sets only is in the first one. -/
def FirstDifferenceIn (s t : PositionSet) : Prop :=
  ∃ i ∈ s, i ∉ t ∧ ∀ j < i, (j ∈ s ↔ j ∈ t)

theorem Ascending.not_mem_of_lt (h : Ascending (i :: s)) (hj : j < i) : j ∉ i :: s := by
  intro hmem
  rcases List.mem_cons.mp hmem with rfl | hmem
  · exact Nat.lt_irrefl j hj
  · have hlt : i < j := (List.pairwise_cons.mp h).1 j hmem
    exact Nat.lt_asymm hj hlt

theorem Ascending.not_mem_tail (h : Ascending (i :: s)) : i ∉ s := by
  intro hmem
  exact Nat.lt_irrefl i ((List.pairwise_cons.mp h).1 i hmem)

/-- The first position of one set lies below all of the other one. -/
theorem firstDifferenceIn_of_lt (hs : Ascending (i :: s)) (ht : Ascending (j :: t))
    (hlt : i < j) : FirstDifferenceIn (i :: s) (j :: t) := by
  refine ⟨i, List.mem_cons_self, ht.not_mem_of_lt hlt, fun k hk => ?_⟩
  exact iff_of_false (hs.not_mem_of_lt hk) (ht.not_mem_of_lt (hk.trans hlt))

theorem not_firstDifferenceIn_of_lt (hs : Ascending (i :: s)) (hlt : j < i) :
    ¬ FirstDifferenceIn (i :: s) (j :: t) := by
  rintro ⟨k, hk, -, hsame⟩
  have hik : ¬ k < i := fun h => hs.not_mem_of_lt h hk
  -- The first position of the second set would have to be in the first one, too.
  have hmem : j ∈ i :: s := (hsame j (by omega)).mpr List.mem_cons_self
  exact hs.not_mem_of_lt hlt hmem

/-- A common first position makes no difference. -/
theorem firstDifferenceIn_cons (hs : Ascending (i :: s)) (ht : Ascending (i :: t)) :
    FirstDifferenceIn (i :: s) (i :: t) ↔ FirstDifferenceIn s t := by
  constructor
  · rintro ⟨k, hk, hnot, hsame⟩
    have hne : k ≠ i := fun h => hnot (h ▸ List.mem_cons_self)
    refine ⟨k, (List.mem_cons.mp hk).resolve_left hne,
      fun h => hnot (List.mem_cons_of_mem i h), fun j hj => ?_⟩
    by_cases hji : j = i
    · subst hji
      exact iff_of_false hs.not_mem_tail ht.not_mem_tail
    · have h := hsame j hj
      rwa [List.mem_cons, List.mem_cons, or_iff_right hji, or_iff_right hji] at h
  · rintro ⟨k, hk, hnot, hsame⟩
    have hne : k ≠ i := fun h => hs.not_mem_tail (h ▸ hk)
    refine ⟨k, List.mem_cons_of_mem i hk, ?_, fun j hj => ?_⟩
    · rw [List.mem_cons, or_iff_right hne]
      exact hnot
    · rw [List.mem_cons, List.mem_cons, hsame j hj]

/-- **Of two sets of the same size** the one comes first that has the least position that is in
one of them only. -/
theorem lt_iff_firstDifferenceIn (hs : Ascending s) (ht : Ascending t)
    (hlength : s.length = t.length) : s < t ↔ FirstDifferenceIn s t := by
  induction s generalizing t with
  | nil =>
      have hnil : t = [] := List.length_eq_zero_iff.mp hlength.symm
      rw [hnil]
      refine iff_of_false (List.lt_irrefl []) ?_
      rintro ⟨i, hi, -⟩
      exact List.not_mem_nil hi
  | cons i s ih =>
      cases t with
      | nil => cases hlength
      | cons j t =>
          rw [List.cons_lt_cons_iff]
          rcases Nat.lt_trichotomy i j with hlt | rfl | hgt
          · exact iff_of_true (Or.inl hlt) (firstDifferenceIn_of_lt hs ht hlt)
          · rw [firstDifferenceIn_cons hs ht, ← ih hs.of_cons ht.of_cons (Nat.succ.inj hlength)]
            simp
          · refine iff_of_false ?_ (not_firstDifferenceIn_of_lt hs hgt)
            rintro (hlt | ⟨rfl, -⟩)
            · exact Nat.lt_asymm hlt hgt
            · exact Nat.lt_irrefl i hgt

/-- Adding the same positions to two sets of the same size does not change which comes first. -/
theorem union_lt_union (hs : Ascending s) (ht : Ascending t) (he : Ascending e)
    (hse : ∀ i ∈ s, i ∉ e) (hte : ∀ i ∈ t, i ∉ e) (hlength : s.length = t.length)
    (hlt : s < t) : union s e < union t e := by
  have hlengths : (union s e).length = (union t e).length := by
    rw [(union_perm hs he hse).length_eq, (union_perm ht he hte).length_eq, List.length_append,
      List.length_append, hlength]
  rw [lt_iff_firstDifferenceIn hs ht hlength] at hlt
  rw [lt_iff_firstDifferenceIn (he.union s) (he.union t) hlengths]
  obtain ⟨i, hi, hnot, hsame⟩ := hlt
  refine ⟨i, mem_union.mpr (Or.inl hi), ?_, fun j hj => ?_⟩
  · rw [mem_union, not_or]
    exact ⟨hnot, hse i hi⟩
  · rw [mem_union, mem_union, hsame j hj]

end PositionSet

namespace Cover

open PositionSet

variable {primes : List Implicant} {rows : List Assignment} {sums : List PositionSet}
  {s t e : PositionSet} {i : Nat}

/-! ### Better sets -/

/-- The first set is better: it has fewer members, or as many members with fewer literals, or as
many of both and comes first in lexicographic order. -/
def Better (primes : List Implicant) (s t : PositionSet) : Prop :=
  s.length < t.length ∨ s.length = t.length ∧
    (literalTotal primes s < literalTotal primes t ∨
      literalTotal primes s = literalTotal primes t ∧ s < t)

theorem comparePreference_eq_lt_iff :
    comparePreference primes s t = .lt ↔ Better primes s t := by
  unfold comparePreference Better
  rw [Ordering.then_eq_lt, Ordering.then_eq_lt, Nat.compare_eq_lt, Nat.compare_eq_eq,
    Nat.compare_eq_lt, Nat.compare_eq_eq, compareMembers_eq_lt_iff]

/-- Sets without a preference are equal. -/
theorem eq_of_comparePreference (h : comparePreference primes s t = .eq) : s = t := by
  unfold comparePreference at h
  rw [Ordering.then_eq_eq, Ordering.then_eq_eq] at h
  exact Std.LawfulEqCmp.eq_of_compare h.2.2

/-- A set stays better when the same positions are added to both. -/
theorem Better.union (h : Better primes s t) (hs : Ascending s) (ht : Ascending t)
    (he : Ascending e) (hse : ∀ i ∈ s, i ∉ e) (hte : ∀ i ∈ t, i ∉ e) :
    Better primes (union s e) (union t e) := by
  have hleft := union_perm hs he hse
  have hright := union_perm ht he hte
  unfold Better at h ⊢
  rw [hleft.length_eq, hright.length_eq, literalTotal_perm primes hleft,
    literalTotal_perm primes hright, literalTotal_append, literalTotal_append,
    List.length_append, List.length_append]
  rcases h with hlt | ⟨hlength, hlt | ⟨htotal, hlt⟩⟩
  · exact Or.inl (by omega)
  · exact Or.inr ⟨by omega, Or.inl (by omega)⟩
  · exact Or.inr ⟨by omega, Or.inr ⟨by omega, union_lt_union hs ht he hse hte hlength hlt⟩⟩

theorem Better.le (h : Better primes s t) : s.length ≤ t.length ∧
    (s.length = t.length → literalTotal primes s ≤ literalTotal primes t) := by
  rcases h with hlt | ⟨hlength, hlt | ⟨htotal, -⟩⟩
  · exact ⟨hlt.le, fun heq => absurd heq hlt.ne⟩
  · exact ⟨hlength.le, fun _ => hlt.le⟩
  · exact ⟨hlength.le, fun _ => htotal.le⟩

/-! ### The chosen set -/

/-- A set around the essential positions consists of them and of its other members. -/
theorem eq_union_essential (hs : Ascending s) (h : (choose primes rows).essential ⊆ s) :
    s = PositionSet.union (s.filter fun i => decide (i ∉ (choose primes rows).essential))
      (choose primes rows).essential := by
  refine List.Pairwise.eq_of_mem_iff hs ((ascending_essential primes rows).union _) fun i => ?_
  rw [mem_union, List.mem_filter, decide_eq_true_iff]
  by_cases hi : i ∈ (choose primes rows).essential
  · exact ⟨fun _ => Or.inr hi, fun _ => h hi⟩
  · exact ⟨fun his => Or.inl ⟨his, hi⟩, fun h' => (h'.resolve_right hi).1⟩

/-- **The chosen set is better than every other covering set.** -/
theorem chosen_better (hs : Ascending s) (h : CoversRows primes rows s)
    (hne : s ≠ (choose primes rows).chosen) : Better primes (choose primes rows).chosen s := by
  have hrest : Ascending (s.filter fun i => decide (i ∉ (choose primes rows).essential)) :=
    hs.filter _
  obtain ⟨minimal, hle⟩ := meetAll_remaining hs h
  have hsplit := eq_union_essential hs (essential_subset h)
  -- The two sets differ in their positions that are not essential.
  have hbetter : Better primes (meetAll primes (remaining primes rows))
      (s.filter fun i => decide (i ∉ (choose primes rows).essential)) := by
    rw [← comparePreference_eq_lt_iff]
    cases hcompare : comparePreference primes (meetAll primes (remaining primes rows))
        (s.filter fun i => decide (i ∉ (choose primes rows).essential)) with
    | lt => rfl
    | eq =>
        have heq := eq_of_comparePreference hcompare
        rw [chosen_eq, heq, ← hsplit] at hne
        exact absurd rfl hne
    | gt =>
        rw [hcompare] at hle
        cases hle
  rw [chosen_eq, hsplit]
  refine hbetter.union minimal.ascending hrest (ascending_essential primes rows)
    minimal.not_mem_essential fun i hi => ?_
  exact of_decide_eq_true (List.mem_filter.mp hi).2

/-- No covering set has fewer positions than the chosen one, or as few with fewer literals. -/
theorem chosen_le (hs : Ascending s) (h : CoversRows primes rows s) :
    (choose primes rows).chosen.length ≤ s.length ∧
      ((choose primes rows).chosen.length = s.length →
        literalTotal primes (choose primes rows).chosen ≤ literalTotal primes s) := by
  by_cases hchosen : s = (choose primes rows).chosen
  · rw [← hchosen]
    exact ⟨Nat.le_refl _, fun _ => Nat.le_refl _⟩
  · exact (chosen_better hs h hchosen).le

/-- A minimal hitting set consists of members of the sums. -/
theorem MinimalHitting.exists_sum (h : MinimalHitting sums s) (hi : i ∈ s) :
    ∃ sum ∈ sums, i ∈ sum := by
  by_contra hnone
  push Not at hnone
  -- Without the position the set would still hit everything.
  have hits : Hits sums (s.filter fun j => decide (j ≠ i)) := by
    intro sum hsum
    obtain ⟨j, hj, hjs⟩ := h.hits sum hsum
    have hji : j ≠ i := fun heq => hnone sum hsum (heq ▸ hj)
    exact ⟨j, hj, List.mem_filter.mpr ⟨hjs, decide_eq_true hji⟩⟩
  have hsame := h.minimal _ (h.ascending.filter _) hits (List.filter_subset_self s)
  rw [← hsame] at hi
  exact of_decide_eq_true (List.mem_filter.mp hi).2 rfl

theorem exists_of_mem_chosen (hs : Ascending s) (h : CoversRows primes rows s)
    (hi : i ∈ (choose primes rows).chosen) : ∃ p, primes[i]? = some p := by
  have hcovering (row : Assignment) (hmem : i ∈ covering primes row) :
      ∃ p, primes[i]? = some p := by
    obtain ⟨p, hp, -⟩ := mem_covering.mp hmem
    exact ⟨p, hp⟩
  rw [chosen_eq, mem_union] at hi
  rcases hi with hi | hi
  · obtain ⟨minimal, -⟩ := meetAll_remaining hs h
    obtain ⟨sum, hsum, hmem⟩ := minimal.exists_sum hi
    obtain ⟨row, -, rfl⟩ := List.mem_map.mp (List.mem_filter.mp hsum).1
    exact hcovering row hmem
  · obtain ⟨row, -, hsingle⟩ := mem_essential.mp hi
    exact hcovering row (hsingle ▸ List.mem_singleton.mpr rfl)

theorem ascending_chosen (primes : List Implicant) (rows : List Assignment) :
    Ascending (choose primes rows).chosen := by
  rw [chosen_eq]
  exact (ascending_essential primes rows).union _

/-- **The selected cover is the best one.**  The cover lists the implicants at a set of positions
in ascending order; these positions cover every row, and they are strictly better than any other
set of positions that does: there are fewer of them, or as many with fewer literals, or as many of
both and they come first in lexicographic order.  The implicants need not be prime, nor different
from each other. -/
theorem select_best (primes : List Implicant) (rows : List Assignment)
    (covered : ∀ row ∈ rows, ∃ p ∈ primes, p.covers row = true) :
    let s := (choose primes rows).chosen
    Ascending s ∧ (select primes rows).cover.map some = s.map (primes[·]?) ∧
      CoversRows primes rows s ∧
      ∀ t, Ascending t → CoversRows primes rows t → t ≠ s → Better primes s t := by
  intro s
  have hall : Ascending (List.range primes.length) := List.pairwise_lt_range
  have hcovers := coversRows_range covered
  refine ⟨ascending_chosen primes rows, ?_, chosen_coversRows hall hcovers,
    fun t ht htcovers hne => chosen_better ht htcovers hne⟩
  unfold select
  rw [List.map_filterMap_some_eq_filter_map_isSome, List.filter_eq_self]
  intro found hfound
  obtain ⟨i, hi, rfl⟩ := List.mem_map.mp hfound
  obtain ⟨p, hp⟩ := exists_of_mem_chosen hall hcovers hi
  rw [hp]
  rfl

/-- A cyclic table without essential positions, in which one implicant is listed twice and one is
not prime. -/
theorem select_best_of_cyclic_table :
    let primes : List Implicant := [⟨6, 6, 3⟩, ⟨3, 1, 3⟩, ⟨7, 0, 3⟩, ⟨6, 0, 3⟩, ⟨5, 5, 3⟩, ⟨5, 0, 3⟩,
      ⟨3, 2, 3⟩, ⟨6, 0, 3⟩]
    let rows : List Assignment := [7, 0, 1, 2, 5, 6, 0]
    let s := (choose primes rows).chosen
    (∀ row ∈ rows, ∃ p ∈ primes, p.covers row = true) ∧
      Ascending s ∧ (select primes rows).cover.map some = s.map (primes[·]?) ∧
      CoversRows primes rows s ∧
      ∀ t, Ascending t → CoversRows primes rows t → t ≠ s → Better primes s t := by
  intro primes rows
  have hall : rows.all (fun row => primes.any (·.covers row)) = true := by decide
  have covered : ∀ row ∈ rows, ∃ p ∈ primes, p.covers row = true := fun row hrow =>
    List.any_eq_true.mp (List.all_eq_true.mp hall row hrow)
  exact ⟨covered, select_best primes rows covered⟩

end Cover
end FacetQuery
