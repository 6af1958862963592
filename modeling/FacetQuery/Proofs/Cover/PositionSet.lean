import Mathlib.Data.List.Sort
import FacetQuery.Cover

/-!
# Sets of positions

A set of positions is the ascending list of its members.  The operations are stated through
membership and inclusion of lists; that a list is ascending is asked for only where two sets
with the same members have to be the same list (`Ascending.eq_of_subset`) or where their sizes
are compared.

The three orders on sets are built from the library's lexicographic orders, which makes them
total orders at once.
-/

namespace FacetQuery
namespace PositionSet

/-- The members come in ascending order, each once. -/
def Ascending (s : PositionSet) : Prop :=
  s.Pairwise (· < ·)

variable {s t u : PositionSet} {i j : Nat}

theorem ascending_nil : Ascending [] :=
  List.Pairwise.nil

theorem Ascending.nodup (h : Ascending s) : s.Nodup :=
  List.Pairwise.imp (fun hlt => Nat.ne_of_lt hlt) h

/-- Two sets with the same members are the same list. -/
theorem Ascending.eq_of_subset (hs : Ascending s) (ht : Ascending t) (hst : s ⊆ t)
    (hts : t ⊆ s) : s = t :=
  List.Pairwise.eq_of_mem_iff hs ht fun _ => ⟨fun h => hst h, fun h => hts h⟩

/-- A set that has no fewer members than a set around it is this set. -/
theorem Ascending.eq_of_length_le (hs : Ascending s) (ht : Ascending t) (hst : s ⊆ t)
    (hle : t.length ≤ s.length) : s = t := by
  have hperm := (List.subperm_of_subset hs.nodup hst).perm_of_length_le hle
  exact hs.eq_of_subset ht hst hperm.symm.subset

theorem Ascending.filter (hs : Ascending s) (keep : Nat → Bool) : Ascending (s.filter keep) :=
  List.Pairwise.filter keep hs

/-! ### Operations -/

theorem mem_insert : j ∈ insert i s ↔ j = i ∨ j ∈ s := by
  induction s with
  | nil => rw [insert, List.mem_singleton, List.mem_nil_iff, or_false]
  | cons k s ih =>
      rw [insert]
      split
      · rw [List.mem_cons]
      · split
        · rename_i hik
          rw [List.mem_cons, hik, ← or_assoc, or_self]
        · rw [List.mem_cons, List.mem_cons, ih, or_left_comm]

theorem Ascending.insert (hs : Ascending s) (i : Nat) : Ascending (insert i s) := by
  induction s with
  | nil => exact List.pairwise_singleton _ _
  | cons k s ih =>
      obtain ⟨hk, hs⟩ := List.pairwise_cons.mp hs
      rw [PositionSet.insert]
      split
      · rename_i hik
        refine List.pairwise_cons.mpr ⟨fun j hj => ?_, List.pairwise_cons.mpr ⟨hk, hs⟩⟩
        rcases List.mem_cons.mp hj with rfl | hj
        · exact hik
        · exact hik.trans (hk j hj)
      · split
        · exact List.pairwise_cons.mpr ⟨hk, hs⟩
        · refine List.pairwise_cons.mpr ⟨fun j hj => ?_, ih hs⟩
          rcases mem_insert.mp hj with rfl | hj
          · omega
          · exact hk j hj

theorem mem_union : j ∈ union s t ↔ j ∈ s ∨ j ∈ t := by
  rw [union]
  induction s generalizing t with
  | nil => rw [List.foldl_nil, List.mem_nil_iff, false_or]
  | cons i s ih => rw [List.foldl_cons, ih, mem_insert, List.mem_cons, or_left_comm, or_assoc]

theorem Ascending.union (ht : Ascending t) (s : PositionSet) : Ascending (union s t) := by
  rw [PositionSet.union]
  induction s generalizing t with
  | nil => exact ht
  | cons i s ih => exact ih (ht.insert i)

theorem subset_iff : subset s t = true ↔ s ⊆ t := by
  rw [subset, List.all_eq_true]
  exact forall₂_congr fun i _ => List.contains_iff_mem

theorem disjoint_iff : disjoint s t = true ↔ ∀ i ∈ s, i ∉ t := by
  rw [disjoint, List.all_eq_true]
  refine forall₂_congr fun i _ => ?_
  rw [Bool.not_eq_true', ← Bool.not_eq_true, List.contains_iff_mem]

theorem disjoint_eq_false_iff : disjoint s t = false ↔ ∃ i ∈ s, i ∈ t := by
  rw [← Bool.not_eq_true, disjoint_iff]
  push Not
  rfl

/-- The union of two sets without common members lists the members of both. -/
theorem union_perm (hs : Ascending s) (ht : Ascending t) (h : ∀ i ∈ s, i ∉ t) :
    (union s t).Perm (s ++ t) := by
  refine (List.perm_ext_iff_of_nodup (ht.union s).nodup ?_).mpr fun i => ?_
  · exact List.nodup_append.mpr ⟨hs.nodup, ht.nodup, fun i hi j hj hij => h i hi (hij ▸ hj)⟩
  · rw [mem_union, List.mem_append]

/-! ### Orders -/

theorem compareMembers_eq : compareMembers = List.compareLex Ord.compare := by
  funext s t
  induction s generalizing t with
  | nil =>
      cases t with
      | nil => rfl
      | cons j t => rfl
  | cons i s ih =>
      cases t with
      | nil => rfl
      | cons j t => rw [compareMembers, ih, List.compareLex_cons_cons]

theorem compareSize_eq : compareSize = compareLex (compareOn List.length) compareMembers :=
  rfl

instance : Std.TransCmp compareMembers := by
  rw [compareMembers_eq]
  infer_instance

instance : Std.LawfulEqCmp compareMembers := by
  rw [compareMembers_eq]
  infer_instance

instance : Std.TransCmp compareSize := by
  rw [compareSize_eq]
  infer_instance

/-- The order by size is one of sizes first. -/
theorem length_le_of_compareSize (h : compareSize s t ≠ .gt) : s.length ≤ t.length := by
  by_contra hlt
  apply h
  rw [compareSize, Nat.compare_eq_gt.mpr (Nat.lt_of_not_le hlt)]
  rfl

end PositionSet
end FacetQuery
