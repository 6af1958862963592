import FacetQuery.Proofs.Implicant.Merging
import FacetQuery.Proofs.PrimeImplicants

/-!
# A round finds what all pairs would find

The textbook method tries to merge every two members of a round.  Here a round goes through its
members once and looks up the upper neighbours of each in a hash set, without ever trying a merge.
`round_eq_pairwise` says that the two find the same: the same implicants go into the next round, and
the same members are found not to be prime.

### What is load-bearing

* The members have to be well formed, and nothing else is asked of them: they may force different
  numbers of variables, be repeated, or come in any order.
* Each pair that merges is found from exactly one side.  This is enough for what the pair merges
  into.  The members that merge have to be noted in pairs, because a member that forces all of its
  variables to be true has no upper neighbours and may still merge.
-/

namespace FacetQuery
namespace Tabulation

open Implicant

variable {current : List Implicant} {p q m : Implicant}

/-! ### What goes into the next round -/

/-- The next round consists of what members merge into with upper neighbours of theirs. -/
theorem mem_next_iff_upperNeighbours :
    m ∈ (round current).next ↔ ∃ p ∈ current, ∃ q ∈ current, (q, m) ∈ p.upperNeighbours := by
  rw [mem_next_round]
  refine exists_congr fun p => and_congr_right fun _ => ?_
  simp only [mem_upperNeighbours, Prod.mk.injEq]
  constructor
  · rintro ⟨v, hlt, hfalse, hflip, hrelax⟩
    exact ⟨p.flip v, hflip, v, hlt, hfalse, rfl, hrelax⟩
  · rintro ⟨q, hq, v, hlt, hfalse, rfl, hrelax⟩
    exact ⟨v, hlt, hfalse, hq, hrelax⟩

/-- **The next round consists of all results of merging two members.** -/
theorem mem_next_iff_merge? (wellFormed : ∀ p ∈ current, p.WellFormed) :
    m ∈ (round current).next ↔ ∃ p ∈ current, ∃ q ∈ current, p.merge? q = some m := by
  have merges {p q : Implicant} (hp : p ∈ current) (hq : q ∈ current) :
      p.merge? q = some m ↔ Xor ((q, m) ∈ p.upperNeighbours) ((p, m) ∈ q.upperNeighbours) :=
    (wellFormed p hp).merge?_eq_some_iff_upperNeighbours (wellFormed q hq)
  rw [mem_next_iff_upperNeighbours]
  constructor
  · rintro ⟨p, hp, q, hq, h⟩
    exact ⟨p, hp, q, hq, (merges hp hq).mpr (Or.inl ⟨h, not_mem_upperNeighbours_of_mem h⟩)⟩
  · rintro ⟨p, hp, q, hq, hmerge⟩
    -- The pair is found from the side of the member that forces the variable to be false.
    rcases (merges hp hq).mp hmerge with ⟨h, -⟩ | ⟨h, -⟩
    · exact ⟨p, hp, q, hq, h⟩
    · exact ⟨q, hq, p, hp, h⟩

/-! ### Which members are combined -/

theorem mem_of_mem_combined (h : p ∈ (merges current).combined) : p ∈ current := by
  obtain ⟨q, hq, v, -, -, hflip, rfl | rfl⟩ := mem_combined_merges.mp h
  · exact hq
  · exact hflip

/-- **A member is combined when it merges with some member**, no matter which of the two finds the
merge. -/
theorem mem_combined_iff_merge? (wellFormed : ∀ p ∈ current, p.WellFormed) (hp : p ∈ current) :
    p ∈ (merges current).combined ↔ ∃ q ∈ current, ∃ m, p.merge? q = some m := by
  have wf := wellFormed p hp
  rw [combined_iff hp]
  constructor
  · rintro ⟨v, -, hforces, hflip⟩
    refine ⟨p.flip v, hflip, p.leaveOpen v, ?_⟩
    exact (wf.merge?_eq_some_iff (wellFormed _ hflip)).mpr ⟨v, hforces, rfl, rfl⟩
  · rintro ⟨q, hq, m, hmerge⟩
    obtain ⟨v, hforces, rfl, -⟩ := (wf.merge?_eq_some_iff (wellFormed q hq)).mp hmerge
    exact ⟨v, wf.lt_numVars hforces, hforces, hq⟩

/-! ### The whole round -/

/-- **A round equals the textbook round over all pairs.**  What goes into the next round are all
results of merging two members.  The implicants that are combined are the members that merge with
some member, so the primes of the round are the members that merge with none. -/
theorem round_eq_pairwise (wellFormed : ∀ p ∈ current, p.WellFormed) :
    (∀ m, m ∈ (round current).next ↔ ∃ p ∈ current, ∃ q ∈ current, p.merge? q = some m) ∧
      (∀ p, p ∈ (merges current).combined ↔
        p ∈ current ∧ ∃ q ∈ current, ∃ m, p.merge? q = some m) ∧
      ∀ p, p ∈ (round current).primes ↔ p ∈ current ∧ ∀ q ∈ current, p.merge? q = none := by
  refine ⟨fun m => mem_next_iff_merge? wellFormed, fun p => ?_, fun p => ?_⟩
  · rw [← and_iff_right_of_imp mem_of_mem_combined]
    exact and_congr_right fun hp => mem_combined_iff_merge? wellFormed hp
  · rw [mem_primes_iff_combined]
    refine and_congr_right fun hp => ?_
    rw [mem_combined_iff_merge? wellFormed hp]
    simp only [not_exists, not_and, Option.eq_none_iff_forall_ne_some, ne_eq]

/-- Rows and implicants with an open variable in one list, of which some merge and one is given
twice. -/
theorem round_eq_pairwise_of_mixed_members :
    let current : List Implicant :=
      [⟨7, 5, 3⟩, ⟨7, 4, 3⟩, ⟨6, 6, 3⟩, ⟨7, 7, 3⟩, ⟨6, 2, 3⟩, ⟨7, 5, 3⟩, ⟨5, 5, 3⟩]
    (∀ p ∈ current, p.WellFormed) ∧
      (∀ m, m ∈ (round current).next ↔ ∃ p ∈ current, ∃ q ∈ current, p.merge? q = some m) ∧
      (∀ p, p ∈ (merges current).combined ↔
        p ∈ current ∧ ∃ q ∈ current, ∃ m, p.merge? q = some m) ∧
      ∀ p, p ∈ (round current).primes ↔ p ∈ current ∧ ∀ q ∈ current, p.merge? q = none := by
  intro current
  have wellFormed : ∀ p ∈ current, p.WellFormed := by decide
  exact ⟨wellFormed, round_eq_pairwise wellFormed⟩

end Tabulation
end FacetQuery
