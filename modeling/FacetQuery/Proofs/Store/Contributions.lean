import FacetQuery.Proofs.Store.Runs
import Mathlib.Data.List.Basic

/-!
# A store is what was put into it

An operation on a store contributes records, values of records and range indexes
(`StoreOp.contributions`).  A store holds exactly what the operations that built it up have
contributed, each thing once however often it was contributed (`Store.holds_build`), and its
answers depend on what it holds alone (`Store.Consistent.lookup_congr`).  So the order of the
operations and their repetition make no difference to any answer.

### What is load-bearing

* A range index lists its column, whichever way it was filled (`Table.Consistent`), and what a
  lookup finds in it depends on what it lists (`RangeIndex.Lists.mem_lookup`).
* A type without a table answers a range with no records, a table without an index with an error.
  So it matters that there are no tables without a reason (`Store.Founded`).
-/

namespace FacetQuery

inductive Contribution where
  | record (entityType : String) (id : RecordId)
  | fact (entityType : String) (id : RecordId) (property : String) (value : Value)
  | index (entityType property : String)
deriving DecidableEq

def StoreOp.contributions : StoreOp → List Contribution
  | .insert entityType id properties =>
    .record entityType id :: properties.map fun p => .fact entityType id p.1 p.2
  | .createRangeIndex entityType property => [.index entityType property]

/-- A record is given one value of a property, and no other. -/
def StoreOp.GiveOnly (ops : List StoreOp) (entityType property : String) (id : RecordId)
    (v : Value) : Prop :=
  ∀ w, .fact entityType id property w ∈ ops.flatMap StoreOp.contributions ↔ w = v

/-! ### What lookups find -/

/-- Whether a lookup in a column finds a value: exact values also find their twins. -/
def ValueMatch.Finds : ValueMatch → Value → Prop
  | exact w, v => v ∈ numericTwins w
  | m, v => m.accepts v = true

variable {m : ValueMatch} {v : Value} {id : RecordId} {ids : IdSet}

/-- **A lookup in a column** finds the records that have a value which it finds. -/
theorem Column.mem_lookup {column : Column} :
    id ∈ column.lookup m ↔ ∃ v, m.Finds v ∧ column.Has v id := by
  have found (m : ValueMatch) :
      id ∈ IdSet.unionAll ((column.toList.filter fun e => m.accepts e.1).map (·.2)) ↔
        ∃ v, m.accepts v = true ∧ column.Has v id := by
    rw [IdSet.mem_unionAll]
    constructor
    · rintro ⟨ids, hids, hid⟩
      obtain ⟨⟨v, ids⟩, hentry, rfl⟩ := List.mem_map.mp hids
      obtain ⟨hmem, haccepts⟩ := List.mem_filter.mp hentry
      exact ⟨v, haccepts, has_iff_toList.mpr ⟨ids, hmem, hid⟩⟩
    · rintro ⟨v, haccepts, hv⟩
      obtain ⟨ids, hmem, hid⟩ := has_iff_toList.mp hv
      exact ⟨ids, List.mem_map.mpr ⟨(v, ids), List.mem_filter.mpr ⟨hmem, haccepts⟩, rfl⟩, hid⟩
  cases m with
  | exact w =>
      rw [lookup, IdSet.mem_unionAll]
      simp only [List.mem_filterMap, ValueMatch.Finds, has_iff]
      constructor
      · rintro ⟨ids, ⟨v, hv, hids⟩, hid⟩
        exact ⟨v, hv, ids, hids, hid⟩
      · rintro ⟨v, hv, ids, hids, hid⟩
        exact ⟨ids, ⟨v, hv, hids⟩, hid⟩
  | startsWith s => exact found _
  | endsWith s => exact found _
  | contains s => exact found _
  | range r => exact found _

/-- Indexes that list the same answer every range alike. -/
theorem RangeIndex.Lists.lookup_congr {index index' : RangeIndex} {has : Value → RecordId → Prop}
    (h : index.Lists has) (h' : index'.Lists has) (r : ValueRange) :
    index.lookup r = index'.lookup r :=
  IdSet.ext fun _ => h.mem_lookup.trans h'.mem_lookup.symm

/-! ### What tables hold -/

namespace Table

variable {t t' : Table} {p q : String} {properties : List (String × Value)}

theorem mem_lookup_column :
    id ∈ (t.columns[p]?.map (Column.lookup · m)).getD ∅ ↔ ∃ v, m.Finds v ∧ t.Has p v id := by
  simp only [Has, Std.HashMap.getD_eq_getD_getElem?]
  cases t.columns[p]? with
  | some column => exact Column.mem_lookup
  | none =>
      refine iff_of_false (IdSet.not_mem_empty id) ?_
      rintro ⟨v, -, hv⟩
      rw [Option.getD_none, Column.Has, Std.HashMap.getD_empty] at hv
      exact IdSet.not_mem_empty id hv

/-- Columns that say the same answer every match alike. -/
theorem lookup_column_congr (has : ∀ v id, t.Has p v id ↔ t'.Has p v id) (m : ValueMatch) :
    (t.columns[p]?.map (Column.lookup · m)).getD ∅ =
      (t'.columns[p]?.map (Column.lookup · m)).getD ∅ := by
  refine IdSet.ext fun id => ?_
  rw [mem_lookup_column, mem_lookup_column]
  exact exists_congr fun v => and_congr_right fun _ => has v id

theorem mem_indexes_insert : q ∈ (t.insert id properties).indexes ↔ q ∈ t.indexes := by
  suffices ∀ t' : Table, q ∈ (properties.foldl (fun t p => addValue id t p.1 p.2) t').indexes ↔
      q ∈ t'.indexes from this _
  induction properties with
  | nil => exact fun _ => Iff.rfl
  | cons e properties ih => exact fun t' => (ih _).trans Std.HashMap.mem_modify

theorem mem_indexes_createRangeIndex :
    q ∈ (t.createRangeIndex p).indexes ↔ q = p ∨ q ∈ t.indexes := by
  rw [createRangeIndex, Std.HashMap.mem_insert, beq_iff_eq, eq_comm]

end Table

/-! ### What stores hold -/

namespace Store

variable {s s' : Store} {entityType property : String} {x : Contribution} {op : StoreOp}
  {ops : List StoreOp}

/-- The table of a type, which is empty if there is none. -/
def table (s : Store) (entityType : String) : Table :=
  s.tables.getD entityType .empty

def Holds (s : Store) : Contribution → Prop
  | .record entityType id => id ∈ (s.table entityType).records
  | .fact entityType id property v => (s.table entityType).Has property v id
  | .index entityType property => property ∈ (s.table entityType).indexes

theorem table_of_some {t : Table} (h : s.tables[entityType]? = some t) :
    s.table entityType = t := by
  rw [table, Std.HashMap.getD_eq_getD_getElem?, h, Option.getD_some]

theorem allRecords_eq (s : Store) (entityType : String) :
    s.allRecords entityType = (s.table entityType).records := by
  rw [allRecords, table, Std.HashMap.getD_eq_getD_getElem?]
  cases s.tables[entityType]? with
  | none => rfl
  | some t => rfl

theorem not_holds_empty : ¬ empty.Holds x := by
  have none (entityType : String) : empty.table entityType = .empty := by
    rw [table, empty, Std.HashMap.getD_empty]
  cases x with
  | record entityType id =>
      rw [Holds, none]
      exact IdSet.not_mem_empty id
  | fact entityType id property v =>
      rw [Holds, none]
      exact Table.not_has_empty
  | index entityType property =>
      rw [Holds, none]
      exact Std.HashMap.not_mem_empty

/-- An operation changes the table of one type. -/
theorem table_alter (s : Store) (entityType : String) (change : Table → Table) (other : String) :
    table ⟨s.tables.alter entityType fun t => some (change (t.getD .empty))⟩ other =
      if entityType = other then change (s.table entityType) else s.table other := by
  rw [table, Std.HashMap.getD_alter, Option.getD_some]
  simp only [table, beq_iff_eq, Std.HashMap.getD_eq_getD_getElem?]

theorem table_insert {other : String} {properties : List (String × Value)} :
    (s.insert entityType id properties).table other =
      if entityType = other then (s.table entityType).insert id properties else s.table other :=
  s.table_alter entityType (Table.insert · id properties) other

theorem table_createRangeIndex {other : String} :
    (s.createRangeIndex entityType property).table other =
      if entityType = other then (s.table entityType).createRangeIndex property
      else s.table other :=
  s.table_alter entityType (Table.createRangeIndex · property) other

/-- Inserting a record adds the record and its values. -/
theorem holds_insert {properties : List (String × Value)} :
    (s.insert entityType id properties).Holds x ↔
      x ∈ (StoreOp.insert entityType id properties).contributions ∨ s.Holds x := by
  have listed {y : Contribution} : y ∈ (StoreOp.insert entityType id properties).contributions ↔
      y = .record entityType id ∨
        ∃ p v, (p, v) ∈ properties ∧ .fact entityType id p v = y := by
    rw [StoreOp.contributions, List.mem_cons, List.mem_map]
    simp only [Prod.exists]
  cases x with
  | record other y =>
      rw [Holds, Holds, table_insert, listed]
      split
      · rename_i h
        rw [h, Table.records_insert, IdSet.mem_insert]
        simp
      · rename_i h
        simp [Ne.symm h]
  | fact other y p v =>
      rw [Holds, Holds, table_insert, listed]
      split
      · rename_i h
        rw [h, Table.has_insert]
        simp [eq_comm]
      · rename_i h
        simp [h]
  | index other p =>
      rw [Holds, Holds, table_insert, listed]
      split
      · rename_i h
        rw [h, Table.mem_indexes_insert]
        simp
      · simp

/-- Creating a range index adds nothing but the index. -/
theorem holds_createRangeIndex :
    (s.createRangeIndex entityType property).Holds x ↔
      x ∈ (StoreOp.createRangeIndex entityType property).contributions ∨ s.Holds x := by
  rw [StoreOp.contributions, List.mem_singleton]
  cases x with
  | record other y =>
      rw [Holds, Holds, table_createRangeIndex]
      split
      · rename_i h
        rw [h]
        simp [Table.createRangeIndex]
      · simp
  | fact other y p v =>
      rw [Holds, Holds, table_createRangeIndex]
      split
      · rename_i h
        rw [h]
        simp [Table.createRangeIndex, Table.Has]
      · simp
  | index other p =>
      rw [Holds, Holds, table_createRangeIndex]
      split
      · rename_i h
        rw [h, Table.mem_indexes_createRangeIndex]
        simp
      · rename_i h
        simp [Ne.symm h]

/-- **One operation** adds what it contributes, and nothing else. -/
theorem holds_apply : (s.apply op).Holds x ↔ x ∈ op.contributions ∨ s.Holds x := by
  cases op with
  | insert entityType id properties => exact holds_insert
  | createRangeIndex entityType property => exact holds_createRangeIndex

/-- **A store that is built up holds what was put into it**, and nothing else. -/
theorem holds_build : (build ops).Holds x ↔ x ∈ ops.flatMap StoreOp.contributions := by
  suffices ∀ s : Store, (ops.foldl Store.apply s).Holds x ↔
      x ∈ ops.flatMap StoreOp.contributions ∨ s.Holds x by
    exact (this empty).trans (or_iff_left not_holds_empty)
  induction ops with
  | nil => simp
  | cons op ops ih =>
      intro s
      rw [List.foldl_cons, ih, holds_apply, List.flatMap_cons, List.mem_append, or_left_comm,
        or_assoc]

/-! ### Reasons for tables -/

/-- There is a table for a type exactly when there is a reason for it: a record of the type, or a
range index. -/
def Founded (s : Store) : Prop :=
  ∀ entityType, entityType ∈ s.tables ↔
    (∃ id, s.Holds (.record entityType id)) ∨ ∃ property, s.Holds (.index entityType property)

theorem mem_tables_alter (s : Store) (entityType : String) (change : Table → Table)
    (other : String) :
    other ∈ (s.tables.alter entityType fun t => some (change (t.getD .empty))) ↔
      entityType = other ∨ other ∈ s.tables := by
  rw [Std.HashMap.mem_alter]
  by_cases h : entityType = other
  · simp [h]
  · simp [h]

theorem founded_empty : empty.Founded := by
  refine fun entityType => iff_of_false Std.HashMap.not_mem_empty ?_
  rintro (⟨id, h⟩ | ⟨property, h⟩)
  · exact not_holds_empty h
  · exact not_holds_empty h

/-- **No operation makes a table without a reason.** -/
theorem Founded.apply (h : s.Founded) (op : StoreOp) : (s.apply op).Founded := by
  intro other
  simp only [holds_apply, exists_or]
  rw [or_or_or_comm, ← h other]
  cases op with
  | insert entityType id properties =>
      refine (s.mem_tables_alter entityType (Table.insert · id properties) other).trans
        (or_congr_left ?_)
      simp [StoreOp.contributions, eq_comm]
  | createRangeIndex entityType property =>
      refine (s.mem_tables_alter entityType (Table.createRangeIndex · property) other).trans
        (or_congr_left ?_)
      simp [StoreOp.contributions, eq_comm]

theorem founded_build (ops : List StoreOp) : (build ops).Founded := by
  suffices ∀ s : Store, s.Founded → (ops.foldl Store.apply s).Founded from this empty founded_empty
  induction ops with
  | nil => exact fun _ h => h
  | cons op ops ih => exact fun s h => ih _ (h.apply op)

/-! ### Equal contents, equal answers -/

private theorem eq_none_iff_of_mem_iff {α β : Type} [BEq α] [LawfulBEq α] [Hashable α]
    {f g : Std.HashMap α β} {a : α} (h : a ∈ f ↔ a ∈ g) : f[a]? = none ↔ g[a]? = none := by
  rw [← Option.not_isSome_iff_eq_none, ← Option.not_isSome_iff_eq_none,
    ← Std.HashMap.mem_iff_isSome_getElem?, ← Std.HashMap.mem_iff_isSome_getElem?, h]

/-- **Stores that hold the same answer every lookup alike**, errors included. -/
theorem Consistent.lookup_congr (h : s.Consistent) (h' : s'.Consistent) (founded : s.Founded)
    (founded' : s'.Founded) (same : ∀ x, s.Holds x ↔ s'.Holds x) :
    s.lookup entityType property m = s'.lookup entityType property m := by
  have tables : s.tables[entityType]? = none ↔ s'.tables[entityType]? = none := by
    refine eq_none_iff_of_mem_iff ?_
    rw [founded, founded']
    exact or_congr (exists_congr fun _ => same _) (exists_congr fun _ => same _)
  rw [lookup, lookup]
  cases ht : s.tables[entityType]? with
  | none => rw [tables.mp ht]
  | some t =>
      obtain ⟨t', ht'⟩ := Option.ne_none_iff_exists'.mp
        fun hnone => Option.some_ne_none t (ht.symm.trans (tables.mpr hnone))
      have has (v : Value) (id : RecordId) : t.Has property v id ↔ t'.Has property v id := by
        have := same (.fact entityType id property v)
        rwa [Holds, Holds, table_of_some ht, table_of_some ht'] at this
      have column (m : ValueMatch) := Table.lookup_column_congr has m
      rw [ht']
      cases m with
      | range r =>
          have indexes : t.indexes[property]? = none ↔ t'.indexes[property]? = none := by
            refine eq_none_iff_of_mem_iff ?_
            have := same (.index entityType property)
            rwa [Holds, Holds, table_of_some ht, table_of_some ht'] at this
          dsimp only
          cases hi : t.indexes[property]? with
          | none => rw [indexes.mp hi]
          | some index =>
              obtain ⟨index', hi'⟩ := Option.ne_none_iff_exists'.mp
                fun hnone => Option.some_ne_none index (hi.symm.trans (indexes.mpr hnone))
              -- Filled in different ways, the two indexes list the same.
              have lists := ((h entityType t ht).indexes property index hi).congr has
              have lists' := (h' entityType t' ht').indexes property index' hi'
              rw [hi']
              exact congrArg Except.ok (lists.lookup_congr lists' r)
      | exact v => exact congrArg Except.ok (column _)
      | startsWith p => exact congrArg Except.ok (column _)
      | endsWith p => exact congrArg Except.ok (column _)
      | contains p => exact congrArg Except.ok (column _)

/-- **A store depends only on what was put into it.**  Operations that contribute the same records,
values of records and range indexes, in any order and with any repetition, build up stores that
give the same answers.  Whoever is found in such a store is a record of the type. -/
theorem build_depends_on_contributions (ops ops' : List StoreOp)
    (same : ∀ x, x ∈ ops.flatMap StoreOp.contributions ↔ x ∈ ops'.flatMap StoreOp.contributions)
    (entityType : String) :
    (∀ property m, (build ops).lookup entityType property m =
      (build ops').lookup entityType property m) ∧
    (build ops).allRecords entityType = (build ops').allRecords entityType ∧
    (build ops).size entityType = (build ops').size entityType ∧
    ∀ property m ids, (build ops).lookup entityType property m = .ok ids →
      ∀ id ∈ ids, id ∈ (build ops).allRecords entityType := by
  have holds (x : Contribution) : (build ops).Holds x ↔ (build ops').Holds x := by
    rw [holds_build, holds_build, same]
  have records : (build ops).allRecords entityType = (build ops').allRecords entityType := by
    refine IdSet.ext fun id => ?_
    rw [allRecords_eq, allRecords_eq]
    exact holds (.record entityType id)
  refine ⟨fun property m => ?_, records, congrArg IdSet.size records, ?_⟩
  · exact (consistent_build ops).lookup_congr (consistent_build ops') (founded_build ops)
      (founded_build ops') holds
  · exact fun property m ids hids id hid => (consistent_build ops).mem_allRecords hids hid

/-- An index that is there before the records, and one that is made between them, twice, while
records come in parts and repeatedly. -/
theorem build_depends_on_contributions_of_reordered :
    let heavy : Value := .int 9007199254740993
    let leapDay : Value := .date ⟨2020, 2, 29, by decide, by decide, by decide⟩
    let ops : List StoreOp :=
      [.createRangeIndex "shoe" "price", .insert "shoe" 7 [("price", heavy), ("color", .text "red")],
        .insert "shoe" 8 [("price", leapDay)], .createRangeIndex "hat" "price"]
    let ops' : List StoreOp :=
      [.insert "shoe" 8 [], .createRangeIndex "hat" "price", .insert "shoe" 7 [("price", heavy)],
        .createRangeIndex "shoe" "price", .insert "shoe" 8 [("price", leapDay)],
        .createRangeIndex "shoe" "price", .insert "shoe" 7 [("color", .text "red")],
        .insert "shoe" 7 [("price", heavy), ("price", heavy)]]
    (∀ x, x ∈ ops.flatMap StoreOp.contributions ↔ x ∈ ops'.flatMap StoreOp.contributions) ∧
      (∀ property m, (build ops).lookup "shoe" property m =
        (build ops').lookup "shoe" property m) ∧
      (build ops).allRecords "shoe" = (build ops').allRecords "shoe" ∧
      (build ops).size "shoe" = (build ops').size "shoe" ∧
      ∀ property m ids, (build ops).lookup "shoe" property m = .ok ids →
        ∀ id ∈ ids, id ∈ (build ops).allRecords "shoe" := by
  intro heavy leapDay ops ops'
  have same (x : Contribution) :
      x ∈ ops.flatMap StoreOp.contributions ↔ x ∈ ops'.flatMap StoreOp.contributions :=
    ⟨fun h => (by decide : ops.flatMap StoreOp.contributions ⊆
        ops'.flatMap StoreOp.contributions) h,
      fun h => (by decide : ops'.flatMap StoreOp.contributions ⊆
        ops.flatMap StoreOp.contributions) h⟩
  exact ⟨same, build_depends_on_contributions ops ops' same "shoe"⟩

end Store
end FacetQuery
