import FacetQuery.Proofs.Store.Contents

/-!
# Looking up a window

An ordered index is walked from the first key in a window to the last one.  The keys ascend, so
what is walked through are the entries with a key in the window, no matter where they stand
(`OrderedIndex.slice?_eq_filter`).

A vacuous window contains no key.  So the test that comes before every walk, and keeps the walk
possible, loses nothing, and a lookup finds the records that are listed under some key in the
window (`OrderedIndex.mem_of_lookup?_eq_some`, `RangeIndex.mem_lookup`): what it finds depends on
what is listed alone (`RangeIndex.Lists.mem_lookup`).
-/

namespace FacetQuery

/-! ### Windows -/

namespace Bound

variable {b : Bound} {j k : Int}

/-- What lies above an admitted key is admitted by a lower bound. -/
theorem admitsAbove_of_lt (h : j < k) (hj : b.admitsAbove j = true) : b.admitsAbove k = true := by
  cases b with
  | unbounded => rfl
  | included key =>
      rw [admitsAbove, decide_eq_true_eq] at hj ⊢
      omega
  | excluded key =>
      rw [admitsAbove, decide_eq_true_eq] at hj ⊢
      omega

/-- What lies below an admitted key is admitted by an upper bound. -/
theorem admitsBelow_of_lt (h : j < k) (hk : b.admitsBelow k = true) : b.admitsBelow j = true := by
  cases b with
  | unbounded => rfl
  | included key =>
      rw [admitsBelow, decide_eq_true_eq] at hk ⊢
      omega
  | excluded key =>
      rw [admitsBelow, decide_eq_true_eq] at hk ⊢
      omega

/-- What a lower bound at a key admits. -/
theorem admitsAbove_iff (h : b.key? = some j) :
    b.admitsAbove k = true ↔ j < k ∨ (j = k ∧ b.isIncluded = true) := by
  cases b with
  | unbounded => cases h
  | included key =>
      obtain rfl := Option.some.inj h
      simp only [admitsAbove, isIncluded, decide_eq_true_eq, and_true]
      omega
  | excluded key =>
      obtain rfl := Option.some.inj h
      simp only [admitsAbove, isIncluded, decide_eq_true_eq, Bool.false_eq_true, and_false,
        or_false]

/-- What an upper bound at a key admits. -/
theorem admitsBelow_iff (h : b.key? = some j) :
    b.admitsBelow k = true ↔ k < j ∨ (k = j ∧ b.isIncluded = true) := by
  cases b with
  | unbounded => cases h
  | included key =>
      obtain rfl := Option.some.inj h
      simp only [admitsBelow, isIncluded, decide_eq_true_eq, and_true]
      omega
  | excluded key =>
      obtain rfl := Option.some.inj h
      simp only [admitsBelow, isIncluded, decide_eq_true_eq, Bool.false_eq_true, and_false,
        or_false]

end Bound

namespace Window

variable {w : Window} {key : Int}

/-- **A vacuous window contains no key.** -/
theorem not_contains_of_isVacuous (h : w.isVacuous = true) : ¬ w.contains key = true := by
  rw [contains, Bool.and_eq_true, not_and]
  intro habove hbelow
  cases hb : w.lower.key? with
  | none =>
      rw [isVacuous, hb] at h
      cases h
  | some b =>
      cases hc : w.upper.key? with
      | none =>
          rw [isVacuous, hb, hc] at h
          cases h
      | some c =>
          rw [isVacuous_iff hb hc, Bool.and_eq_false_iff] at h
          rw [Bound.admitsAbove_iff hb] at habove
          rw [Bound.admitsBelow_iff hc] at hbelow
          -- The keys leave room between them only for one that both bounds include.
          rcases h with h | ⟨rfl, h⟩
          · omega
          · rcases h with h | h
            · simp only [h, Bool.false_eq_true, and_false, or_false] at habove
              omega
            · simp only [h, Bool.false_eq_true, and_false, or_false] at hbelow
              omega

end Window

/-! ### Ordered indexes -/

/-- In a list where `p` holds of everything behind a member of which it holds, the members before
the first such one are those of which it does not hold. -/
private theorem dropWhile_not_eq_filter {α : Type} {p : α → Bool} {l : List α}
    (h : l.Pairwise fun a b => p a = true → p b = true) :
    (l.dropWhile fun a => !p a) = l.filter p := by
  induction l with
  | nil => rfl
  | cons a l ih =>
      obtain ⟨hall, htail⟩ := List.pairwise_cons.mp h
      cases ha : p a with
      | false => rw [List.dropWhile_cons_of_pos (by rw [ha]; rfl), ih htail,
          List.filter_cons_of_neg (by rw [ha]; exact Bool.false_ne_true)]
      | true =>
          rw [List.dropWhile_cons_of_neg (by rw [ha]; exact Bool.false_ne_true),
            List.filter_cons_of_pos ha, List.filter_eq_self.mpr fun b hb => hall b hb ha]

/-- In a list where `p` holds of everything before a member of which it holds, the members up to
the first exception are those of which it holds. -/
private theorem takeWhile_eq_filter {α : Type} {p : α → Bool} {l : List α}
    (h : l.Pairwise fun a b => p b = true → p a = true) : l.takeWhile p = l.filter p := by
  induction l with
  | nil => rfl
  | cons a l ih =>
      obtain ⟨hall, htail⟩ := List.pairwise_cons.mp h
      cases ha : p a with
      | true => rw [List.takeWhile_cons_of_pos ha, ih htail, List.filter_cons_of_pos ha]
      | false =>
          rw [List.takeWhile_cons_of_neg (by rw [ha]; exact Bool.false_ne_true),
            List.filter_cons_of_neg (by rw [ha]; exact Bool.false_ne_true), eq_comm,
            List.filter_eq_nil_iff]
          intro b hb hpb
          rw [hall b hb hpb] at ha
          cases ha

namespace OrderedIndex

variable {index : OrderedIndex} {w : Window} {id : RecordId}

/-- **Walking through a window** finds exactly the entries with a key in it. -/
theorem slice?_eq_filter (h : w.isProper = true) :
    index.slice? w = some (index.entries.filter fun e => w.contains e.1) := by
  have above : index.entries.Pairwise fun e f =>
      w.lower.admitsAbove e.1 = true → w.lower.admitsAbove f.1 = true :=
    index.ascending.imp Bound.admitsAbove_of_lt
  have below : index.entries.Pairwise fun e f =>
      w.upper.admitsBelow f.1 = true → w.upper.admitsBelow e.1 = true :=
    index.ascending.imp Bound.admitsBelow_of_lt
  rw [slice?, if_pos h, dropWhile_not_eq_filter above,
    takeWhile_eq_filter (below.sublist List.filter_sublist), List.filter_filter]
  simp only [Window.contains, Bool.and_comm]

/-- **A lookup finds the records that are listed under a key in the window.** -/
theorem mem_of_lookup?_eq_some {ids : IdSet} (h : index.lookup? w = some ids) :
    id ∈ ids ↔ ∃ key, w.contains key = true ∧ index.Has key id := by
  rw [lookup?] at h
  split at h
  · rename_i hvacuous
    obtain rfl := Option.some.inj h
    refine iff_of_false (IdSet.not_mem_empty id) ?_
    rintro ⟨key, hkey, -⟩
    exact Window.not_contains_of_isVacuous hvacuous hkey
  · rename_i hvacuous
    rw [slice?_eq_filter (Window.isProper_of_not_isVacuous hvacuous), Option.map_some] at h
    obtain rfl := Option.some.inj h
    rw [IdSet.mem_unionAll]
    constructor
    · rintro ⟨ids, hids, hid⟩
      obtain ⟨⟨key, ids⟩, hentry, rfl⟩ := List.mem_map.mp hids
      obtain ⟨hmem, hkey⟩ := List.mem_filter.mp hentry
      exact ⟨key, hkey, ids, hmem, hid⟩
    · rintro ⟨key, hkey, ids, hmem, hid⟩
      exact ⟨ids, List.mem_map.mpr ⟨(key, ids), List.mem_filter.mpr ⟨hmem, hkey⟩, rfl⟩, hid⟩

/-- A lookup in a window that there may not be finds nothing if there is none. -/
theorem mem_of_elim_lookup?_eq_some {w? : Option Window} {ids : IdSet}
    (h : w?.elim (some ∅) index.lookup? = some ids) :
    id ∈ ids ↔ ∃ w, w? = some w ∧ ∃ key, w.contains key = true ∧ index.Has key id := by
  cases w? with
  | none =>
      obtain rfl := Option.some.inj h
      refine iff_of_false (IdSet.not_mem_empty id) ?_
      rintro ⟨w, hnone, -⟩
      cases hnone
  | some w =>
      rw [mem_of_lookup?_eq_some h]
      simp only [Option.some.injEq, exists_eq_left']

end OrderedIndex

/-! ### Range indexes -/

namespace RangeIndex

variable {index : RangeIndex} {r : ValueRange} {id : RecordId}

/-- The lookup is the partial one. -/
theorem lookup?_eq_some (index : RangeIndex) (r : ValueRange) :
    index.lookup? r = some (index.lookup r) :=
  (Option.some_get (index.isSome_lookup? r)).symm

/-- **A lookup finds what is listed in the windows of the range.** -/
theorem mem_lookup : id ∈ index.lookup r ↔
    (∃ w, dateWindow? r = some w ∧ ∃ key, w.contains key = true ∧ index.dates.Has key id) ∨
      ∃ w, numberWindow? r = some w ∧ ∃ key, w.contains key = true ∧ index.numbers.Has key id := by
  have found := index.lookup?_eq_some r
  unfold lookup? at found
  obtain ⟨dates, hdates, found⟩ := Option.bind_eq_some_iff.mp found
  obtain ⟨numbers, hnumbers, found⟩ := Option.bind_eq_some_iff.mp found
  rw [← Option.some.inj found, IdSet.mem_union,
    OrderedIndex.mem_of_elim_lookup?_eq_some hdates,
    OrderedIndex.mem_of_elim_lookup?_eq_some hnumbers]

/-- Whether a lookup of a range in an index finds a value. -/
def Finds (r : ValueRange) (v : Value) : Prop :=
  (∃ w, dateWindow? r = some w ∧ ∃ key, dateKey? v = some key ∧ w.contains key = true) ∨
    ∃ w, numberWindow? r = some w ∧ ∃ key, numberKey? v = some key ∧ w.contains key = true

/-- **A lookup in a range index** finds the records that have a value which it finds. -/
theorem Lists.mem_lookup {has : Value → RecordId → Prop} (h : index.Lists has) :
    id ∈ index.lookup r ↔ ∃ v, Finds r v ∧ has v id := by
  rw [RangeIndex.mem_lookup]
  simp only [h.dates, h.numbers]
  constructor
  · rintro (⟨w, hw, key, hkey, v, hv, hid⟩ | ⟨w, hw, key, hkey, v, hv, hid⟩)
    · exact ⟨v, Or.inl ⟨w, hw, key, hv, hkey⟩, hid⟩
    · exact ⟨v, Or.inr ⟨w, hw, key, hv, hkey⟩, hid⟩
  · rintro ⟨v, ⟨w, hw, key, hv, hkey⟩ | ⟨w, hw, key, hv, hkey⟩, hid⟩
    · exact Or.inl ⟨w, hw, key, hkey, v, hv, hid⟩
    · exact Or.inr ⟨w, hw, key, hkey, v, hv, hid⟩

end RangeIndex
end FacetQuery
