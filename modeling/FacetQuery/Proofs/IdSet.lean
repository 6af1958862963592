import FacetQuery.IdSet

/-!
# Membership in intersections, differences and unions

What the operations on sets of record numbers do to membership.  The walks that intersect and
subtract drop a number as soon as the other list has passed it, so here, unlike for unions, it
matters that both lists are ascending.
-/

namespace FacetQuery
namespace IdSet

variable {s t : IdSet} {sets : List IdSet} {id : RecordId}

/-- A number that lies below the first member of an ascending list is not in the list. -/
private theorem not_mem_of_lt {x y : RecordId} {l : List RecordId}
    (hl : (y :: l).Pairwise (· < ·)) (hlt : x < y) : x ∉ y :: l := by
  intro hx
  rcases List.mem_cons.mp hx with rfl | hx
  · exact UInt64.lt_irrefl x hlt
  · exact UInt64.lt_irrefl x (UInt64.lt_trans hlt ((List.pairwise_cons.mp hl).1 x hx))

private theorem eq_of_not_lt {x y : RecordId} (hxy : ¬ x < y) (hyx : ¬ y < x) : x = y :=
  UInt64.le_antisymm (UInt64.not_lt.mp hyx) (UInt64.not_lt.mp hxy)

theorem mem_interList {s t : List RecordId} (hs : s.Pairwise (· < ·)) (ht : t.Pairwise (· < ·)) :
    id ∈ interList s t ↔ id ∈ s ∧ id ∈ t := by
  fun_induction interList s t with
  | case1 t => simp
  | case2 x s => simp
  | case3 x s y t hlt ih =>
      rw [ih hs.of_cons ht, List.mem_cons (b := x)]
      refine and_congr_left fun hid => (or_iff_right ?_).symm
      rintro rfl
      exact not_mem_of_lt ht hlt hid
  | case4 x s y t _ hlt ih =>
      rw [ih hs ht.of_cons, List.mem_cons (b := y)]
      refine and_congr_right fun hid => (or_iff_right ?_).symm
      rintro rfl
      exact not_mem_of_lt hs hlt hid
  | case5 x s y t hxy hyx ih =>
      obtain rfl := eq_of_not_lt hxy hyx
      rw [List.mem_cons, ih hs.of_cons ht.of_cons, List.mem_cons, List.mem_cons, or_and_left]

theorem mem_diffList {s t : List RecordId} (hs : s.Pairwise (· < ·)) (ht : t.Pairwise (· < ·)) :
    id ∈ diffList s t ↔ id ∈ s ∧ id ∉ t := by
  fun_induction diffList s t with
  | case1 t => simp
  | case2 x s => simp
  | case3 x s y t hlt ih =>
      rw [List.mem_cons, ih hs.of_cons ht, List.mem_cons (b := x), or_and_right]
      refine or_congr_left (and_iff_left_of_imp ?_).symm
      rintro rfl
      exact not_mem_of_lt ht hlt
  | case4 x s y t _ hlt ih =>
      rw [ih hs ht.of_cons, List.mem_cons (b := y), not_or]
      refine and_congr_right fun hid => (and_iff_right ?_).symm
      rintro rfl
      exact not_mem_of_lt hs hlt hid
  | case5 x s y t hxy hyx ih =>
      obtain rfl := eq_of_not_lt hxy hyx
      rw [ih hs.of_cons ht.of_cons, List.mem_cons, List.mem_cons, not_or]
      constructor
      · rintro ⟨hid, hnot⟩
        refine ⟨Or.inr hid, ?_, hnot⟩
        rintro rfl
        exact UInt64.lt_irrefl id ((List.pairwise_cons.mp hs).1 id hid)
      · rintro ⟨hid, hne, hnot⟩
        exact ⟨hid.resolve_left hne, hnot⟩

@[simp] theorem mem_inter : id ∈ s.inter t ↔ id ∈ s ∧ id ∈ t :=
  mem_interList s.ascending t.ascending

@[simp] theorem mem_diff : id ∈ s.diff t ↔ id ∈ s ∧ id ∉ t :=
  mem_diffList s.ascending t.ascending

private theorem mem_foldl_union : id ∈ sets.foldl union s ↔ id ∈ s ∨ ∃ t ∈ sets, id ∈ t := by
  induction sets generalizing s with
  | nil => simp
  | cons t sets ih => simp only [List.foldl_cons, ih, mem_union, List.mem_cons, exists_eq_or_imp,
      or_assoc]

@[simp] theorem mem_unionAll : id ∈ unionAll sets ↔ ∃ t ∈ sets, id ∈ t := by
  rw [unionAll, mem_foldl_union]
  exact or_iff_right (not_mem_empty id)

/-- The members of a set that is there only if something else is. -/
theorem mem_getD_map {α : Type} {found : Option α} {f : α → IdSet} :
    id ∈ (found.map f).getD ∅ ↔ ∃ a, found = some a ∧ id ∈ f a := by
  cases found with
  | none =>
      refine iff_of_false (not_mem_empty id) ?_
      rintro ⟨a, hnone, -⟩
      cases hnone
  | some a =>
      constructor
      · exact fun h => ⟨a, rfl, h⟩
      · rintro ⟨b, hsome, h⟩
        obtain rfl := Option.some.inj hsome
        exact h

/-- A set that counts as empty has no members. -/
theorem not_mem_of_isEmpty (h : s.isEmpty = true) : id ∉ s := by
  intro hid
  rw [isEmpty, List.isEmpty_iff] at h
  change id ∈ s.toList at hid
  rw [h] at hid
  exact List.not_mem_nil hid

end IdSet
end FacetQuery
