import FacetQuery.Proofs.Cover.Preference

/-!
# Essential positions

A position is taken to be essential when some row is covered at this position only.  This is a
test of single rows, but it decides a question about all covering sets: the essential positions
are those that no covering set can do without (`mem_essential_iff_unavoidable`).

### What is load-bearing

A position that passes the test for no row can be left out of the set of all positions, because
each row that it covers is covered at another position as well (`coversRows_others`).  Nothing is
asked of the implicants: they may be repeated, and then neither of two equal ones is essential,
and they need not be prime.
-/

namespace FacetQuery
namespace Cover

open PositionSet

variable {primes : List Implicant} {rows : List Assignment} {row : Assignment} {i : Nat}

/-- A row that is not covered at one position only is covered at another one as well. -/
theorem exists_other_of_covering_ne (hi : i ∈ covering primes row)
    (hne : covering primes row ≠ [i]) : ∃ j ∈ covering primes row, j ≠ i := by
  by_contra hnone
  push Not at hnone
  refine hne ((ascending_covering primes row).eq_of_subset (List.pairwise_singleton _ i) ?_ ?_)
  · exact fun j hj => List.mem_singleton.mpr (hnone j hj)
  · exact List.cons_subset.mpr ⟨hi, List.nil_subset _⟩

/-- **All other positions cover every row** when a position is not essential. -/
theorem coversRows_others (covered : ∀ row ∈ rows, ∃ p ∈ primes, p.covers row = true)
    (hi : i ∉ (choose primes rows).essential) :
    CoversRows primes rows ((List.range primes.length).filter fun j => decide (j ≠ i)) := by
  have others {row : Assignment} (hrow : row ∈ rows) : ∃ j ∈ covering primes row, j ≠ i := by
    obtain ⟨j, -, p, hp, hcovers⟩ := coversRows_range covered row hrow
    have hj : j ∈ covering primes row := mem_covering.mpr ⟨p, hp, hcovers⟩
    by_cases hji : j = i
    · subst hji
      exact exists_other_of_covering_ne hj
        fun hsingle => hi (mem_essential.mpr ⟨row, hrow, hsingle⟩)
    · exact ⟨j, hj, hji⟩
  intro row hrow
  obtain ⟨j, hj, hji⟩ := others hrow
  obtain ⟨p, hp, hcovers⟩ := mem_covering.mp hj
  refine ⟨j, List.mem_filter.mpr ⟨?_, decide_eq_true hji⟩, p, hp, hcovers⟩
  exact List.mem_range.mpr (List.getElem?_eq_some_iff.mp hp).1

/-- **The essential positions are the unavoidable ones.** -/
theorem mem_essential_iff_unavoidable
    (covered : ∀ row ∈ rows, ∃ p ∈ primes, p.covers row = true) :
    i ∈ (choose primes rows).essential ↔
      ∀ s, Ascending s → CoversRows primes rows s → i ∈ s := by
  constructor
  · exact fun hi s _ hcovers => essential_subset hcovers hi
  · intro unavoidable
    by_contra hi
    have hmem := unavoidable _ (List.Pairwise.filter _ List.pairwise_lt_range)
      (coversRows_others covered hi)
    exact of_decide_eq_true (List.mem_filter.mp hmem).2 rfl

/-- The chosen positions start from the essential ones, whether they cover every row or not. -/
theorem essential_subset_chosen (primes : List Implicant) (rows : List Assignment) :
    (choose primes rows).essential ⊆ (choose primes rows).chosen := by
  intro i hi
  rw [chosen_eq, mem_union]
  exact Or.inr hi

/-- Two sets of positions of which one contains the other list their members in the same order. -/
theorem sublist_of_subset {s t : PositionSet} (hs : Ascending s) (ht : Ascending t)
    (hst : s ⊆ t) : s.Sublist t := by
  have hfilter : s = t.filter fun i => decide (i ∈ s) := by
    refine List.Pairwise.eq_of_mem_iff hs (ht.filter _) fun i => ?_
    rw [List.mem_filter, decide_eq_true_iff]
    exact ⟨fun hi => ⟨hst hi, hi⟩, fun hi => hi.2⟩
  rw [hfilter]
  exact List.filter_sublist

theorem exists_of_mem_essential (hi : i ∈ (choose primes rows).essential) :
    ∃ p, primes[i]? = some p := by
  obtain ⟨row, -, hsingle⟩ := mem_essential.mp hi
  obtain ⟨p, hp, -⟩ := mem_covering.mp (hsingle ▸ List.mem_singleton.mpr rfl)
  exact ⟨p, hp⟩

/-- **Essentials are exactly the unavoidable implicants.**  The reported essentials are the
implicants at a set of positions.  If every row can be covered, a position is one of them if and
only if every set of positions that covers all rows contains it.  In any case the essentials are
among the chosen positions, and so they are a part of the cover, in the same order. -/
theorem select_essential_unavoidable (primes : List Implicant) (rows : List Assignment) :
    let essential := (choose primes rows).essential
    ((∀ row ∈ rows, ∃ p ∈ primes, p.covers row = true) →
        ∀ i, i ∈ essential ↔ ∀ s, Ascending s → CoversRows primes rows s → i ∈ s) ∧
      (select primes rows).essential.map some = essential.map (primes[·]?) ∧
      essential ⊆ (choose primes rows).chosen ∧
      (select primes rows).essential.Sublist (select primes rows).cover := by
  intro essential
  refine ⟨fun covered i => mem_essential_iff_unavoidable covered, ?_,
    essential_subset_chosen primes rows, ?_⟩
  · unfold select
    rw [List.map_filterMap_some_eq_filter_map_isSome, List.filter_eq_self]
    intro found hfound
    obtain ⟨i, hi, rfl⟩ := List.mem_map.mp hfound
    obtain ⟨p, hp⟩ := exists_of_mem_essential hi
    rw [hp]
    rfl
  · exact (sublist_of_subset (ascending_essential primes rows) (ascending_chosen primes rows)
      (essential_subset_chosen primes rows)).filterMap _

/-- Two essential implicants, one that is listed twice and so is not essential, and one that is not
prime. -/
theorem select_essential_unavoidable_of_repeated_implicant :
    let primes : List Implicant :=
      [⟨6, 6, 3⟩, ⟨6, 0, 3⟩, ⟨5, 5, 3⟩, ⟨3, 3, 3⟩, ⟨6, 0, 3⟩, ⟨7, 7, 3⟩]
    let rows : List Assignment := [6, 0, 7, 5, 6, 1]
    let essential := (choose primes rows).essential
    (∀ row ∈ rows, ∃ p ∈ primes, p.covers row = true) ∧ essential = [0, 2] ∧
      (∀ i, i ∈ essential ↔ ∀ s, Ascending s → CoversRows primes rows s → i ∈ s) ∧
      (select primes rows).essential.map some = essential.map (primes[·]?) ∧
      essential ⊆ (choose primes rows).chosen ∧
      (select primes rows).essential.Sublist (select primes rows).cover := by
  intro primes rows essential
  have hall : rows.all (fun row => primes.any (·.covers row)) = true := by decide
  have covered : ∀ row ∈ rows, ∃ p ∈ primes, p.covers row = true := fun row hrow =>
    List.any_eq_true.mp (List.all_eq_true.mp hall row hrow)
  obtain ⟨unavoidable, reported, chosen, cover⟩ := select_essential_unavoidable primes rows
  exact ⟨covered, by decide, unavoidable covered, reported, chosen, cover⟩

end Cover
end FacetQuery
