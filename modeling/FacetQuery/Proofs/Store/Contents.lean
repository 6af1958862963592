import FacetQuery.Proofs.IdSet
import FacetQuery.Store.Basic

/-!
# What a table contains

A table says in up to three places that a record has a value of a property: the set of all
records, the column of the property, and its range index if there is one.  The column decides
(`Table.Has`).  `Table.Consistent` says that the other two places agree with it: whoever is in a
column is a record, and a range index lists exactly the numbers and the dates of its column.

A range index is filled in two ways, from the whole column when it is created and value by value
from then on.  Both add one value of one record at a time, so one lemma about adding
(`RangeIndex.Lists.add`) carries both.
-/

namespace FacetQuery

variable {v w : Value} {id x : RecordId} {k key : Int} {p q : String}

/-! ### Ordered indexes -/

/-- Looking among entries, entry by entry. -/
private theorem exists_entry_cons {α : Type} {a b : α} {s : IdSet} {entries : List (α × IdSet)} :
    (∃ ids, (a, ids) ∈ (b, s) :: entries ∧ x ∈ ids) ↔
      (a = b ∧ x ∈ s) ∨ ∃ ids, (a, ids) ∈ entries ∧ x ∈ ids := by
  simp only [List.mem_cons, Prod.mk.injEq, or_and_right, exists_or, and_assoc, exists_and_left,
    exists_eq_left]

def OrderedIndex.Has (index : OrderedIndex) (key : Int) (id : RecordId) : Prop :=
  ∃ ids, (key, ids) ∈ index.entries ∧ id ∈ ids

namespace OrderedIndex

variable {index : OrderedIndex}

theorem not_has_empty : ¬ empty.Has key id := by
  rintro ⟨ids, hmem, -⟩
  exact List.not_mem_nil hmem

private theorem mem_insert_empty : x ∈ IdSet.empty.insert id ↔ x = id :=
  IdSet.mem_insert.trans (or_iff_left (IdSet.not_mem_empty x))

private theorem has_insertEntry {entries : List (Int × IdSet)} :
    (∃ ids, (k, ids) ∈ insertEntry key id entries ∧ x ∈ ids) ↔
      (k = key ∧ x = id) ∨ ∃ ids, (k, ids) ∈ entries ∧ x ∈ ids := by
  induction entries with
  | nil => rw [insertEntry, exists_entry_cons, mem_insert_empty]
  | cons e entries ih =>
      obtain ⟨j, ids⟩ := e
      rw [insertEntry]
      split
      · rw [exists_entry_cons, mem_insert_empty]
      · split
        · rename_i heq
          rw [exists_entry_cons, exists_entry_cons, IdSet.mem_insert, and_or_left, or_assoc, heq]
        · rw [exists_entry_cons, exists_entry_cons, ih, or_left_comm]

theorem has_insert : (index.insert key id).Has k x ↔ (k = key ∧ x = id) ∨ index.Has k x :=
  has_insertEntry

end OrderedIndex

/-! ### Range indexes -/

/-- The index lists exactly the given numbers and dates of records. -/
structure RangeIndex.Lists (index : RangeIndex) (has : Value → RecordId → Prop) : Prop where
  numbers : ∀ key id, index.numbers.Has key id ↔ ∃ v, numberKey? v = some key ∧ has v id
  dates : ∀ key id, index.dates.Has key id ↔ ∃ v, dateKey? v = some key ∧ has v id

namespace RangeIndex

variable {index : RangeIndex} {has has' : Value → RecordId → Prop}

/-- A date is no number. -/
theorem numberKey?_eq_none (h : dateKey? v = some key) : numberKey? v = none := by
  cases v with
  | date d => rfl
  | bool b => cases h
  | int i => cases h
  | float f => cases h
  | text s => cases h

theorem Lists.congr (h : index.Lists has) (same : ∀ v id, has v id ↔ has' v id) :
    index.Lists has' := by
  constructor
  · exact fun key id => (h.numbers key id).trans
      (exists_congr fun v => and_congr_right fun _ => same v id)
  · exact fun key id => (h.dates key id).trans
      (exists_congr fun v => and_congr_right fun _ => same v id)

theorem lists_empty : empty.Lists fun _ _ => False := by
  constructor
  · exact fun key id => iff_of_false OrderedIndex.not_has_empty fun ⟨_, _, h⟩ => h
  · exact fun key id => iff_of_false OrderedIndex.not_has_empty fun ⟨_, _, h⟩ => h

/-- **Adding a value of a record** lists it and nothing else besides what was listed. -/
theorem Lists.add (h : index.Lists has) (v : Value) (id : RecordId) :
    (index.add v id).Lists fun w x => (w = v ∧ x = id) ∨ has w x := by
  have split (key? : Value → Option Int) (k : Int) (x : RecordId) :
      (∃ w, key? w = some k ∧ ((w = v ∧ x = id) ∨ has w x)) ↔
        (key? v = some k ∧ x = id) ∨ ∃ w, key? w = some k ∧ has w x := by
    simp only [and_or_left, exists_or]
    refine or_congr_left ⟨?_, ?_⟩
    · rintro ⟨w, hkey, rfl, rfl⟩
      exact ⟨hkey, rfl⟩
    · rintro ⟨hkey, rfl⟩
      exact ⟨v, hkey, rfl, rfl⟩
  rw [RangeIndex.add]
  -- A value has at most one of the two keys, so at most one of the two indexes changes.
  cases hnumber : numberKey? v with
  | some key =>
      have hdate : dateKey? v = none := by
        rw [Option.eq_none_iff_forall_ne_some]
        intro k hk
        rw [numberKey?_eq_none hk] at hnumber
        cases hnumber
      constructor
      · intro k x
        rw [split, hnumber, OrderedIndex.has_insert, h.numbers, Option.some.injEq, eq_comm (a := k)]
      · intro k x
        rw [split, hdate, h.dates]
        simp
  | none =>
      cases hdate : dateKey? v with
      | some key =>
          constructor
          · intro k x
            rw [split, hnumber, h.numbers]
            simp
          · intro k x
            rw [split, hdate, OrderedIndex.has_insert, h.dates, Option.some.injEq,
              eq_comm (a := k)]
      | none =>
          constructor
          · intro k x
            rw [split, hnumber, h.numbers]
            simp
          · intro k x
            rw [split, hdate, h.dates]
            simp

end RangeIndex

/-! ### Columns -/

def Column.Has (column : Column) (v : Value) (id : RecordId) : Prop :=
  id ∈ column.getD v ∅

namespace Column

variable {column : Column} {m : ValueMatch}

theorem has_iff : column.Has v id ↔ ∃ ids, column[v]? = some ids ∧ id ∈ ids := by
  rw [Has, Std.HashMap.getD_eq_getD_getElem?]
  cases column[v]? with
  | none => simp
  | some ids => simp

theorem has_iff_toList : column.Has v id ↔ ∃ ids, (v, ids) ∈ column.toList ∧ id ∈ ids := by
  rw [has_iff]
  exact exists_congr fun ids => and_congr_left fun _ =>
    Std.HashMap.mem_toList_iff_getElem?_eq_some.symm

theorem has_addToColumn {column : Option Column} :
    ((Table.addToColumn id v column).getD ∅).Has w x ↔
      (w = v ∧ x = id) ∨ (column.getD ∅).Has w x := by
  rw [Table.addToColumn, Option.getD_some, Has, Has, Std.HashMap.getD_alter]
  by_cases hvw : v = w
  · subst hvw
    rw [if_pos (beq_self_eq_true v), Option.getD_some, IdSet.mem_insert,
      Std.HashMap.getD_eq_getD_getElem?]
    simp
  · rw [if_neg (by simpa using hvw)]
    simp [Ne.symm hvw]

/-- A lookup other than of a range finds nothing but what the column says. -/
theorem exists_has_of_mem_lookup (h : id ∈ column.lookup m) : ∃ v, column.Has v id := by
  have found (m : ValueMatch)
      (h : id ∈ IdSet.unionAll ((column.toList.filter fun e => m.accepts e.1).map (·.2))) :
      ∃ v, column.Has v id := by
    obtain ⟨ids, hids, hid⟩ := IdSet.mem_unionAll.mp h
    obtain ⟨⟨v, ids⟩, hentry, rfl⟩ := List.mem_map.mp hids
    exact ⟨v, has_iff_toList.mpr ⟨ids, (List.mem_filter.mp hentry).1, hid⟩⟩
  cases m with
  | exact v =>
      obtain ⟨ids, hids, hid⟩ := IdSet.mem_unionAll.mp h
      obtain ⟨w, -, hw⟩ := List.mem_filterMap.mp hids
      exact ⟨w, has_iff.mpr ⟨ids, hw, hid⟩⟩
  | startsWith s => exact found _ h
  | endsWith s => exact found _ h
  | contains s => exact found _ h
  | range r => exact found _ h

end Column

/-! ### Filling a range index from a column -/

private theorem lists_foldl_ids {index : RangeIndex} {has : Value → RecordId → Prop}
    (h : index.Lists has) (v : Value) (ids : List RecordId) :
    (ids.foldl (fun index id => index.add v id) index).Lists
      fun w x => (w = v ∧ x ∈ ids) ∨ has w x := by
  induction ids generalizing index has with
  | nil => exact h.congr fun w x => by simp
  | cons id ids ih =>
      refine (ih (h.add v id)).congr fun w x => ?_
      rw [List.mem_cons, and_or_left, or_left_comm, or_assoc]

private theorem lists_foldl_entries {index : RangeIndex} {has : Value → RecordId → Prop}
    (h : index.Lists has) (entries : List (Value × IdSet)) :
    (entries.foldl (fun index e => e.2.toList.foldl (fun index id => index.add e.1 id) index)
      index).Lists fun w x => (∃ ids, (w, ids) ∈ entries ∧ x ∈ ids) ∨ has w x := by
  induction entries generalizing index has with
  | nil => exact h.congr fun w x => by simp
  | cons e entries ih =>
      obtain ⟨v, ids⟩ := e
      refine (ih (lists_foldl_ids h v ids.toList)).congr fun w x => ?_
      rw [exists_entry_cons, or_left_comm, or_assoc]
      rfl

/-- **A range index that is created lists its column.** -/
theorem RangeIndex.lists_indexOf (column : Column) : (Table.indexOf column).Lists column.Has := by
  refine (lists_foldl_entries RangeIndex.lists_empty column.toList).congr fun v id => ?_
  rw [or_false, Column.has_iff_toList]

/-! ### Tables -/

def Table.Has (t : Table) (property : String) (v : Value) (id : RecordId) : Prop :=
  (t.columns.getD property ∅).Has v id

/-- The three places of a table agree. -/
structure Table.Consistent (t : Table) : Prop where
  records : ∀ property v id, t.Has property v id → id ∈ t.records
  indexes : ∀ (property : String) (index : RangeIndex),
    t.indexes[property]? = some index → index.Lists (t.Has property)

namespace Table

variable {t : Table} {properties : List (String × Value)}

theorem not_has_empty : ¬ empty.Has p v id := by
  rw [Has, Column.Has, empty, Std.HashMap.getD_empty, Std.HashMap.getD_empty]
  exact IdSet.not_mem_empty id

/-- A lookup in a column finds nothing but what the table says. -/
theorem exists_has_of_mem_column {m : ValueMatch}
    (h : id ∈ (t.columns[p]?.map (Column.lookup · m)).getD ∅) : ∃ v, t.Has p v id := by
  obtain ⟨column, hcolumn, hid⟩ := IdSet.mem_getD_map.mp h
  obtain ⟨v, hv⟩ := Column.exists_has_of_mem_lookup hid
  refine ⟨v, ?_⟩
  rwa [Has, Std.HashMap.getD_eq_getD_getElem?, hcolumn]

theorem has_addValue :
    (addValue id t p v).Has q w x ↔ (q = p ∧ w = v ∧ x = id) ∨ t.Has q w x := by
  rw [Has, Has, addValue, Std.HashMap.getD_alter]
  by_cases hpq : p = q
  · subst hpq
    rw [if_pos (beq_self_eq_true p), Column.has_addToColumn, Std.HashMap.getD_eq_getD_getElem?]
    simp
  · rw [if_neg (by simpa using hpq)]
    simp [Ne.symm hpq]

theorem has_insert :
    (t.insert id properties).Has q w x ↔ ((q, w) ∈ properties ∧ x = id) ∨ t.Has q w x := by
  -- The table changes from value to value, so the induction is over all tables.
  suffices ∀ t' : Table, (properties.foldl (fun t p => addValue id t p.1 p.2) t').Has q w x ↔
      ((q, w) ∈ properties ∧ x = id) ∨ t'.Has q w x from this _
  induction properties with
  | nil => simp
  | cons e properties ih =>
      obtain ⟨p, v⟩ := e
      intro t'
      rw [List.foldl_cons, ih, has_addValue, List.mem_cons, Prod.mk.injEq, or_and_right,
        ← or_assoc, or_comm (a := _ ∧ _), and_assoc]

/-- **Adding a value of a record keeps a table consistent**, if the record is there. -/
theorem Consistent.addValue (h : t.Consistent) (hid : id ∈ t.records) (p : String) (v : Value) :
    (addValue id t p v).Consistent := by
  constructor
  · intro q w x hx
    rcases has_addValue.mp hx with ⟨-, -, rfl⟩ | hx
    · exact hid
    · exact h.records q w x hx
  · intro q index hindex
    change (t.indexes.modify p fun index => index.add v id)[q]? = some index at hindex
    rw [Std.HashMap.getElem?_modify] at hindex
    split at hindex
    · rename_i hpq
      obtain rfl := eq_of_beq hpq
      obtain ⟨old, hold, rfl⟩ := Option.map_eq_some_iff.mp hindex
      refine ((h.indexes p old hold).add v id).congr fun w x => ?_
      rw [has_addValue, eq_self, true_and]
    · rename_i hpq
      refine (h.indexes q index hindex).congr fun w x => ?_
      rw [has_addValue, or_iff_right]
      exact fun hqp => hpq (beq_iff_eq.mpr hqp.1.symm)

theorem Consistent.insertRecord (h : t.Consistent) (id : RecordId) :
    Consistent { t with records := t.records.insert id } :=
  ⟨fun q w x hx => IdSet.mem_insert.mpr (Or.inr (h.records q w x hx)), h.indexes⟩

theorem records_insert : (t.insert id properties).records = t.records.insert id := by
  suffices ∀ t' : Table,
      (properties.foldl (fun t p => addValue id t p.1 p.2) t').records = t'.records from this _
  induction properties with
  | nil => exact fun _ => rfl
  | cons e properties ih => exact fun t' => ih _

theorem Consistent.insert (h : t.Consistent) (id : RecordId)
    (properties : List (String × Value)) : (t.insert id properties).Consistent := by
  suffices ∀ t' : Table, t'.Consistent → id ∈ t'.records →
      (properties.foldl (fun t p => Table.addValue id t p.1 p.2) t').Consistent from
    this _ (h.insertRecord id) (IdSet.mem_insert.mpr (Or.inl rfl))
  induction properties with
  | nil => exact fun t' h' _ => h'
  | cons e properties ih => exact fun t' h' hid => ih _ (h'.addValue hid e.1 e.2) hid

/-- **Creating a range index keeps a table consistent**, whether or not there was one. -/
theorem Consistent.createRangeIndex (h : t.Consistent) (p : String) :
    (t.createRangeIndex p).Consistent := by
  refine ⟨h.records, fun q index hindex => ?_⟩
  change (t.indexes.insert p (indexOf (t.columns.getD p ∅)))[q]? = some index at hindex
  rw [Std.HashMap.getElem?_insert] at hindex
  split at hindex
  · rename_i hpq
    obtain rfl := eq_of_beq hpq
    obtain rfl := Option.some.inj hindex
    exact RangeIndex.lists_indexOf _
  · exact h.indexes q index hindex

theorem consistent_empty : empty.Consistent := by
  refine ⟨fun p v id hid => absurd hid not_has_empty, fun p index hindex => ?_⟩
  change (∅ : Std.HashMap String RangeIndex)[p]? = some index at hindex
  rw [Std.HashMap.getElem?_empty] at hindex
  cases hindex

end Table
end FacetQuery
