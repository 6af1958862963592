/-!
# Sets of record numbers

An `IdSet` is a finite set of 64-bit record numbers, kept as the strictly ascending list
of its members.  Being ascending is part of the type, so a set has one representation
only and two sets with the same members are equal (`IdSet.ext`).

Each operation is one walk over the lists; beside it stands what it does to membership.
-/

namespace FacetQuery

abbrev RecordId := UInt64

/-- A finite set of record numbers, as the ascending list of its members.  The list is the only
one of the set, so sets with the same members are equal, and a page of a set is a part of its
list. -/
structure IdSet where
  toList : List RecordId
  ascending : toList.Pairwise (· < ·)
deriving DecidableEq

namespace IdSet

/-! ### Ascending lists -/

def insertList (x : RecordId) : List RecordId → List RecordId
  | [] => [x]
  | y :: rest =>
    if x < y then x :: y :: rest
    else if x = y then y :: rest
    else y :: insertList x rest

def unionList : List RecordId → List RecordId → List RecordId
  | [], t => t
  | x :: s, [] => x :: s
  | x :: s, y :: t =>
    if x < y then x :: unionList s (y :: t)
    else if y < x then y :: unionList (x :: s) t
    else x :: unionList s t
termination_by s t => s.length + t.length

def interList : List RecordId → List RecordId → List RecordId
  | [], _ => []
  | _ :: _, [] => []
  | x :: s, y :: t =>
    if x < y then interList s (y :: t)
    else if y < x then interList (x :: s) t
    else x :: interList s t
termination_by s t => s.length + t.length

def diffList : List RecordId → List RecordId → List RecordId
  | [], _ => []
  | x :: s, [] => x :: s
  | x :: s, y :: t =>
    if x < y then x :: diffList s (y :: t)
    else if y < x then diffList (x :: s) t
    else diffList s t
termination_by s t => s.length + t.length

theorem mem_insertList {x z : RecordId} {s : List RecordId} :
    z ∈ insertList x s ↔ z = x ∨ z ∈ s := by
  induction s with
  | nil => simp [insertList]
  | cons y rest ih =>
    simp only [insertList]
    split
    · simp
    · split
      · rename_i h; subst h; simp
      · simp only [List.mem_cons, ih]
        grind

theorem mem_unionList {z : RecordId} {s t : List RecordId} :
    z ∈ unionList s t ↔ z ∈ s ∨ z ∈ t := by
  fun_induction unionList s t <;> grind

theorem pairwise_insertList {x : RecordId} {s : List RecordId} (hs : s.Pairwise (· < ·)) :
    (insertList x s).Pairwise (· < ·) := by
  induction s with
  | nil => simp [insertList]
  | cons y rest ih =>
    have hrest := List.pairwise_cons.1 hs
    simp only [insertList]
    split
    · rename_i h
      refine List.pairwise_cons.2 ⟨?_, hs⟩
      intro z hz
      rcases List.mem_cons.1 hz with rfl | hz
      · exact h
      · exact UInt64.lt_trans h (hrest.1 z hz)
    · split
      · exact hs
      · rename_i h h'
        refine List.pairwise_cons.2 ⟨?_, ih hrest.2⟩
        intro z hz
        rcases mem_insertList.1 hz with rfl | hz
        · exact UInt64.lt_of_le_of_ne (UInt64.not_lt.1 h) fun e => h' e.symm
        · exact hrest.1 z hz

theorem pairwise_unionList {s t : List RecordId} (hs : s.Pairwise (· < ·))
    (ht : t.Pairwise (· < ·)) : (unionList s t).Pairwise (· < ·) := by
  fun_induction unionList s t with
  | case1 => exact ht
  | case2 => exact hs
  | case3 x s y t h ih =>
    have hs' := List.pairwise_cons.1 hs
    refine List.pairwise_cons.2 ⟨?_, ih hs'.2 ht⟩
    intro z hz
    rcases mem_unionList.1 hz with hz | hz
    · exact hs'.1 z hz
    · rcases List.mem_cons.1 hz with rfl | hz
      · exact h
      · exact UInt64.lt_trans h ((List.pairwise_cons.1 ht).1 z hz)
  | case4 x s y t h h' ih =>
    have ht' := List.pairwise_cons.1 ht
    refine List.pairwise_cons.2 ⟨?_, ih hs ht'.2⟩
    intro z hz
    rcases mem_unionList.1 hz with hz | hz
    · rcases List.mem_cons.1 hz with rfl | hz
      · exact h'
      · exact UInt64.lt_trans h' ((List.pairwise_cons.1 hs).1 z hz)
    · exact ht'.1 z hz
  | case5 x s y t h h' ih =>
    have e : x = y := UInt64.le_antisymm (UInt64.not_lt.1 h') (UInt64.not_lt.1 h)
    subst e
    have hs' := List.pairwise_cons.1 hs
    have ht' := List.pairwise_cons.1 ht
    refine List.pairwise_cons.2 ⟨?_, ih hs'.2 ht'.2⟩
    intro z hz
    rcases mem_unionList.1 hz with hz | hz
    · exact hs'.1 z hz
    · exact ht'.1 z hz

theorem interList_sublist (s t : List RecordId) : (interList s t).Sublist s := by
  fun_induction interList s t with
  | case1 | case2 => simp
  | case3 x s y t _ ih => exact ih.cons x
  | case4 x s y t _ _ ih => exact ih
  | case5 x s y t _ _ ih => exact ih.cons_cons x

theorem diffList_sublist (s t : List RecordId) : (diffList s t).Sublist s := by
  fun_induction diffList s t with
  | case1 | case2 => simp
  | case3 x s y t _ ih => exact ih.cons_cons x
  | case4 x s y t _ _ ih => exact ih
  | case5 x s y t _ _ ih => exact ih.cons x

/-! ### Sets -/

def empty : IdSet :=
  ⟨[], .nil⟩

instance : EmptyCollection IdSet := ⟨empty⟩

instance : Inhabited IdSet := ⟨empty⟩

instance : Membership RecordId IdSet := ⟨fun s id => id ∈ s.toList⟩

instance (id : RecordId) (s : IdSet) : Decidable (id ∈ s) :=
  inferInstanceAs (Decidable (id ∈ s.toList))

def size (s : IdSet) : Nat :=
  s.toList.length

def isEmpty (s : IdSet) : Bool :=
  s.toList.isEmpty

def max? (s : IdSet) : Option RecordId :=
  s.toList.getLast?

def insert (id : RecordId) (s : IdSet) : IdSet :=
  ⟨insertList id s.toList, pairwise_insertList s.ascending⟩

def union (s t : IdSet) : IdSet :=
  ⟨unionList s.toList t.toList, pairwise_unionList s.ascending t.ascending⟩

def inter (s t : IdSet) : IdSet :=
  ⟨interList s.toList t.toList, s.ascending.sublist (interList_sublist s.toList t.toList)⟩

def diff (s t : IdSet) : IdSet :=
  ⟨diffList s.toList t.toList, s.ascending.sublist (diffList_sublist s.toList t.toList)⟩

def unionAll (sets : List IdSet) : IdSet :=
  sets.foldl union ∅

theorem ext {s t : IdSet} (h : ∀ id, id ∈ s ↔ id ∈ t) : s = t := by
  obtain ⟨s, hs⟩ := s
  obtain ⟨t, ht⟩ := t
  simp only [mk.injEq]
  change ∀ id, id ∈ s ↔ id ∈ t at h
  induction s generalizing t with
  | nil => exact (List.eq_nil_iff_forall_not_mem.2 fun id hid => by simpa using (h id).2 hid).symm
  | cons x s ih =>
    have hs' := List.pairwise_cons.1 hs
    cases t with
    | nil => simpa using (h x).1 (by simp)
    | cons y t =>
      have ht' := List.pairwise_cons.1 ht
      have hxy : x = y := by
        rcases List.mem_cons.1 ((h x).1 (by simp)) with e | hx
        · exact e
        · rcases List.mem_cons.1 ((h y).2 (by simp)) with e | hy
          · exact e.symm
          · exact absurd (UInt64.lt_trans (hs'.1 y hy) (ht'.1 x hx)) (UInt64.lt_irrefl x)
      subst hxy
      congr 1
      refine ih hs'.2 t ht'.2 fun id => ⟨fun hid => ?_, fun hid => ?_⟩
      · rcases List.mem_cons.1 ((h id).1 (List.mem_cons_of_mem x hid)) with rfl | hid'
        · exact absurd (hs'.1 id hid) (UInt64.lt_irrefl id)
        · exact hid'
      · rcases List.mem_cons.1 ((h id).2 (List.mem_cons_of_mem x hid)) with rfl | hid'
        · exact absurd (ht'.1 id hid) (UInt64.lt_irrefl id)
        · exact hid'

@[simp] theorem not_mem_empty (id : RecordId) : id ∉ (∅ : IdSet) :=
  List.not_mem_nil

@[simp] theorem mem_insert {id x : RecordId} {s : IdSet} : id ∈ s.insert x ↔ id = x ∨ id ∈ s :=
  mem_insertList

@[simp] theorem mem_union {id : RecordId} {s t : IdSet} : id ∈ s.union t ↔ id ∈ s ∨ id ∈ t :=
  mem_unionList

end IdSet
end FacetQuery
