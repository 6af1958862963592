import FacetQuery.Proofs.Store.Windows

/-!
# Stores that are built up

A store is built up from nothing by inserting records and creating range indexes, in any order
(`StoreOp`, `Store.build`).  In every store that is built up all tables are consistent, and so a
lookup finds nothing but records (`Consistent.mem_allRecords`): the fact that makes it right to
read "not among the records that match" as "does not match".
-/

namespace FacetQuery

inductive StoreOp where
  | insert (entityType : String) (id : RecordId) (properties : List (String × Value))
  | createRangeIndex (entityType property : String)

namespace Store

variable {s : Store} {entityType property : String} {m : ValueMatch} {ids : IdSet} {id : RecordId}

def apply (s : Store) : StoreOp → Store
  | .insert entityType id properties => s.insert entityType id properties
  | .createRangeIndex entityType property => s.createRangeIndex entityType property

/-- The store that some operations build up from nothing. -/
def build (ops : List StoreOp) : Store :=
  ops.foldl apply empty

def Consistent (s : Store) : Prop :=
  ∀ (entityType : String) (t : Table), s.tables[entityType]? = some t → t.Consistent

theorem consistent_empty : empty.Consistent := by
  intro entityType t ht
  change (∅ : Std.HashMap String Table)[entityType]? = some t at ht
  rw [Std.HashMap.getElem?_empty] at ht
  cases ht

/-- Changing the table of one type keeps the store consistent when the change does so. -/
theorem Consistent.alter (h : s.Consistent) (entityType : String) (change : Table → Table)
    (keeps : ∀ t : Table, t.Consistent → (change t).Consistent) :
    Consistent ⟨s.tables.alter entityType fun t => some (change (t.getD .empty))⟩ := by
  intro other t ht
  change (s.tables.alter entityType fun t => some (change (t.getD .empty)))[other]? = some t at ht
  rw [Std.HashMap.getElem?_alter] at ht
  split at ht
  · obtain rfl := Option.some.inj ht
    refine keeps _ ?_
    cases hold : s.tables[entityType]? with
    | none => exact Table.consistent_empty
    | some old => exact h entityType old hold
  · exact h other t ht

/-- **Every operation keeps the tables consistent.** -/
theorem Consistent.apply (h : s.Consistent) (op : StoreOp) : (s.apply op).Consistent := by
  cases op with
  | insert entityType id properties =>
      exact h.alter entityType (Table.insert · id properties) fun t ht => ht.insert id properties
  | createRangeIndex entityType property =>
      exact h.alter entityType (Table.createRangeIndex · property) fun t ht =>
        ht.createRangeIndex property

theorem consistent_build (ops : List StoreOp) : (build ops).Consistent := by
  suffices ∀ s : Store, s.Consistent → (ops.foldl Store.apply s).Consistent from
    this empty consistent_empty
  induction ops with
  | nil => exact fun _ h => h
  | cons op ops ih => exact fun s h => ih _ (h.apply op)

/-- **Whoever is found by a lookup is a record of the type.** -/
theorem Consistent.mem_allRecords (h : s.Consistent)
    (hlookup : s.lookup entityType property m = .ok ids) (hid : id ∈ ids) :
    id ∈ s.allRecords entityType := by
  rw [lookup] at hlookup
  rw [allRecords]
  cases htable : s.tables[entityType]? with
  | none =>
      rw [htable] at hlookup
      obtain rfl := Except.ok.inj hlookup
      exact absurd hid (IdSet.not_mem_empty id)
  | some t =>
      have consistent := h entityType t htable
      rw [htable] at hlookup
      suffices ∃ v, t.Has property v id by
        obtain ⟨v, hv⟩ := this
        exact consistent.records property v id hv
      -- A range is looked up in the index, everything else in the column.
      cases m with
      | range r =>
          dsimp only at hlookup
          cases hindex : t.indexes[property]? with
          | none =>
              rw [hindex] at hlookup
              cases hlookup
          | some index =>
              rw [hindex] at hlookup
              obtain rfl := Except.ok.inj hlookup
              obtain ⟨v, -, hv⟩ := (consistent.indexes property index hindex).mem_lookup.mp hid
              exact ⟨v, hv⟩
      | exact v => exact Table.exists_has_of_mem_column (Except.ok.inj hlookup ▸ hid)
      | startsWith s => exact Table.exists_has_of_mem_column (Except.ok.inj hlookup ▸ hid)
      | endsWith s => exact Table.exists_has_of_mem_column (Except.ok.inj hlookup ▸ hid)
      | contains s => exact Table.exists_has_of_mem_column (Except.ok.inj hlookup ▸ hid)

end Store
end FacetQuery
