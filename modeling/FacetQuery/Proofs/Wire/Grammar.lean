import FacetQuery.Proofs.Wire.Records
import FacetQuery.Wire.Query

/-!
# The grammar of queries

`SpellsQuery j t` says that a value spells a query tree.  The grammar is that of the wire form and
has no word about how it is read: a query is a record with a list of entries, an entry is a
predicate or a disjunction with a list of alternatives, an alternative is a predicate or a query,
and no list is empty (`Spells`).

The reader decides by a key what an entry is going to be before it looks at anything else.  The
grammar need not: no predicate has the key `or` or the key `and`, so the decision never turns away
what the grammar spells (`EntryKind.of_spellsPredicate`).  Hence `readQuery_eq_ok`: a value is
read as a tree if and only if it spells it.

### What is load-bearing

The reader of a list consumes one item after the other and descends into each of them, so the
induction is on the size of the list, and both kinds of lists are treated at once
(`read_eq_ok`).  What the reader does with one item is said once for each kind
(`readEntry_eq_ok`, `readAlternative_eq_ok`).
-/

namespace FacetQuery.Wire

variable {j : Json} {t : QueryTree} {here location : Location} {index : Nat}

/-! ### The grammar -/

inductive ListKind where
  | entries
  | alternatives

/-- **The grammar of the lists in a query**: what the items of a list spell, one tree each. -/
inductive Spells : ListKind → List Json → List QueryTree → Prop where
  | nil (kind : ListKind) : Spells kind [] []
  | predicate {kind : ListKind} {j : Json} {p : PredicateFields} {js : List Json}
      {ts : List QueryTree} (spelled : SpellsPredicate j p) (nonempty : p.values ≠ [])
      (rest : Spells kind js ts) :
      Spells kind (j :: js) (.leaf ⟨p.property, p.values⟩ p.negated :: ts)
  | disjunction {items js : List Json} {alternatives ts : List QueryTree} (nonempty : items ≠ [])
      (inside : Spells .alternatives items alternatives) (rest : Spells .entries js ts) :
      Spells .entries (.object [("or", .array items)] :: js) (.any alternatives :: ts)
  | query {fields : List (String × Json)} {q : QueryFields} {js : List Json}
      {children ts : List QueryTree} (spelled : SpellsQueryFields fields q)
      (nonempty : q.entries ≠ []) (inside : Spells .entries q.entries children)
      (rest : Spells .alternatives js ts) :
      Spells .alternatives (.object fields :: js) (.all children q.negated :: ts)

/-- **The grammar of queries.** -/
inductive SpellsQuery : Json → QueryTree → Prop where
  | mk {j : Json} {q : QueryFields} {children : List QueryTree} (spelled : SpellsQueryRecord j q)
      (nonempty : q.entries ≠ []) (inside : Spells .entries q.entries children) :
      SpellsQuery j (.all children q.negated)

/-! ### What the keys announce -/

theorem EntryKind.of_eq_nested {key : String} {fields : List (String × Json)} :
    of key j = .nested fields ↔ j = .object fields ∧ key ∈ fields.map Prod.fst := by
  constructor
  · intro h
    obtain rfl := eq_object_of_nested h
    rw [of] at h
    split at h
    · rename_i hkey
      obtain ⟨f, hf, hkey⟩ := List.any_eq_true.mp hkey
      exact ⟨rfl, beq_iff_eq.mp hkey ▸ List.mem_map_of_mem hf⟩
    · cases h
  · rintro ⟨rfl, hkey⟩
    obtain ⟨f, hf, rfl⟩ := List.mem_map.mp hkey
    rw [of, if_pos (List.any_eq_true.mpr ⟨f, hf, beq_self_eq_true f.1⟩)]

theorem EntryKind.eq_predicate_or_nested (key : String) (j : Json) :
    of key j = .predicate ∨ ∃ fields, of key j = .nested fields := by
  cases of key j with
  | nested fields => exact Or.inr ⟨fields, rfl⟩
  | predicate => exact Or.inl rfl

/-- **What is spelled like a predicate is taken for one**, as long as the key that announces
something else is no key of a predicate. -/
theorem EntryKind.of_spellsPredicate {key : String} {p : PredicateFields}
    (h : SpellsPredicate j p) (hkey : key ∉ predicateShape.fields) : of key j = .predicate := by
  rcases eq_predicate_or_nested key j with hkind | ⟨fields, hkind⟩
  · exact hkind
  · obtain ⟨rfl, hmem⟩ := of_eq_nested.mp hkind
    obtain ⟨h⟩ := h
    exact absurd (h.only.known hmem) hkey

/-! ### Reading one item -/

theorem readPredicate_eq_ok :
    readPredicate here j = .ok t ↔
      ∃ p, SpellsPredicate j p ∧ p.values ≠ [] ∧ .leaf ⟨p.property, p.values⟩ p.negated = t := by
  rw [readPredicate]
  cases h : PredicateFields.ofJson j with
  | error mismatch => simp [← PredicateFields.ofJson_eq_ok, h]
  | ok p =>
      simp only [← PredicateFields.ofJson_eq_ok, h, ite_error_eq_ok, Except.ok.injEq,
        exists_eq_left', List.isEmpty_eq_false_iff]

def readItem (here : Location) (j : Json) : ListKind → Except QueryError QueryTree
  | .entries =>
    match EntryKind.of "or" j with
    | .predicate => readPredicate here j
    | .nested fields => do
      let alternatives ← (alternativesOfObject fields).mapError (.entry here)
      if alternatives.isEmpty then .error (.emptyList .or here)
      else (readAlternatives here 0 alternatives).map .any
  | .alternatives =>
    match EntryKind.of "and" j with
    | .predicate => readPredicate here j
    | .nested fields => do
      let q ← (QueryFields.ofObject fields).mapError (.entry here)
      if q.entries.isEmpty then .error (.emptyList .and here)
      else (readEntries here 0 q.entries).map (.all · q.negated)

/-- Reads the items of a list, from the one with the given position on. -/
def readList (location : Location) (index : Nat) (js : List Json) :
    ListKind → Except QueryError (List QueryTree)
  | .entries => readEntries location index js
  | .alternatives => readAlternatives location index js

def Location.item (location : Location) (index : Nat) : ListKind → Location
  | .entries => location.entry index
  | .alternatives => location.alternative index

theorem readList_nil (kind : ListKind) : readList location index [] kind = .ok [] := by
  cases kind with
  | entries => rw [readList, readEntries]
  | alternatives => rw [readList, readAlternatives]

/-- **A list is read item by item.** -/
theorem readList_cons (kind : ListKind) (js : List Json) :
    readList location index (j :: js) kind = (do
      let child ← readItem (location.item index kind) j kind
      let rest ← readList location (index + 1) js kind
      pure (child :: rest)) := by
  cases kind with
  | entries =>
      rw [readList, readEntries, readItem]
      dsimp only [Location.item, readList]
      split
      · rename_i hk
        rw [hk]
      · rename_i fields hk
        rw [hk]
        dsimp only
        split
        · rename_i ha
          rw [ha]
          rfl
        · rename_i ha
          rw [ha]
          simp only [Except.mapError, bind, Except.bind]
          split <;> rfl
  | alternatives =>
      rw [readList, readAlternatives, readItem]
      dsimp only [Location.item, readList]
      split
      · rename_i hk
        rw [hk]
      · rename_i fields hk
        rw [hk]
        dsimp only
        split
        · rename_i hq
          rw [hq]
          rfl
        · rename_i hq
          rw [hq]
          simp only [Except.mapError, bind, Except.bind]
          split <;> rfl

-- The grammar is one relation and not built from this one: a relation that occurs inside another
-- one could not be reasoned about by induction.
/-- What one item spells, given what the list inside of it spells. -/
inductive SpellsItem (inside : ListKind → List Json → List QueryTree → Prop) :
    ListKind → Json → QueryTree → Prop where
  | predicate {kind : ListKind} {j : Json} {p : PredicateFields} (spelled : SpellsPredicate j p)
      (nonempty : p.values ≠ []) :
      SpellsItem inside kind j (.leaf ⟨p.property, p.values⟩ p.negated)
  | disjunction {items : List Json} {alternatives : List QueryTree} (nonempty : items ≠ [])
      (spelled : inside .alternatives items alternatives) :
      SpellsItem inside .entries (.object [("or", .array items)]) (.any alternatives)
  | query {fields : List (String × Json)} {q : QueryFields} {children : List QueryTree}
      (record : SpellsQueryFields fields q) (nonempty : q.entries ≠ [])
      (spelled : inside .entries q.entries children) :
      SpellsItem inside .alternatives (.object fields) (.all children q.negated)

/-- The key that announces a list inside of an item. -/
def ListKind.key : ListKind → String
  | .entries => "or"
  | .alternatives => "and"

/-- An item that no key announces otherwise has to be a predicate. -/
theorem spellsItem_of_predicate {R : ListKind → List Json → List QueryTree → Prop}
    {kind : ListKind} (hk : EntryKind.of kind.key j = .predicate) :
    SpellsItem R kind j t ↔
      ∃ p, SpellsPredicate j p ∧ p.values ≠ [] ∧
        .leaf ⟨p.property, p.values⟩ p.negated = t := by
  have noKey {fields : List (String × Json)} {value : Json} (hj : j = .object fields)
      (hkey : (kind.key, value) ∈ fields) : False := by
    rw [EntryKind.of_eq_nested.mpr ⟨hj, List.mem_map_of_mem hkey⟩] at hk
    cases hk
  constructor
  · intro h
    cases h with
    | predicate spelled nonempty => exact ⟨_, spelled, nonempty, rfl⟩
    | disjunction => exact (noKey rfl List.mem_cons_self).elim
    | query record => exact (noKey rfl record.entries).elim
  · rintro ⟨p, spelled, nonempty, rfl⟩
    exact .predicate spelled nonempty

/-- **An item is read exactly as it is spelled**, as far as the list inside of it is. -/
theorem readItem_eq_ok {kind : ListKind} :
    readItem here j kind = .ok t ↔
      SpellsItem (fun kind js ts => readList here 0 js kind = .ok ts) kind j t := by
  rcases EntryKind.eq_predicate_or_nested kind.key j with hk | ⟨fields, hk⟩
  · rw [spellsItem_of_predicate hk, ← readPredicate_eq_ok]
    cases kind with
    | entries => rw [readItem, show EntryKind.of "or" j = .predicate from hk]
    | alternatives => rw [readItem, show EntryKind.of "and" j = .predicate from hk]
  · have noPredicate {p : PredicateFields} (spelled : SpellsPredicate j p) : False := by
      rw [EntryKind.of_spellsPredicate spelled (by cases kind <;> decide)] at hk
      cases hk
    cases kind with
    | entries =>
        rw [readItem, show EntryKind.of "or" j = .nested fields from hk]
        obtain ⟨rfl, -⟩ := EntryKind.of_eq_nested.mp hk
        dsimp only
        simp only [bind_eq_ok, mapError_eq_ok, ite_error_eq_ok, map_eq_ok,
          alternativesOfObject_eq_ok, List.isEmpty_eq_false_iff]
        constructor
        · rintro ⟨items, rfl, nonempty, alternatives, hread, rfl⟩
          exact .disjunction nonempty hread
        · intro h
          cases h with
          | predicate spelled => exact (noPredicate spelled).elim
          | disjunction nonempty hread => exact ⟨_, rfl, nonempty, _, hread, rfl⟩
    | alternatives =>
        rw [readItem, show EntryKind.of "and" j = .nested fields from hk]
        obtain ⟨rfl, -⟩ := EntryKind.of_eq_nested.mp hk
        dsimp only
        simp only [bind_eq_ok, mapError_eq_ok, ite_error_eq_ok, map_eq_ok,
          QueryFields.ofObject_eq_ok, List.isEmpty_eq_false_iff]
        constructor
        · rintro ⟨q, record, nonempty, children, hread, rfl⟩
          exact .query record nonempty hread
        · intro h
          cases h with
          | predicate spelled => exact (noPredicate spelled).elim
          | query record nonempty hread => exact ⟨_, record, nonempty, _, hread, rfl⟩

/-- Only lists that are smaller than the item can be inside of it. -/
theorem SpellsItem.mono {R R' : ListKind → List Json → List QueryTree → Prop} {kind : ListKind}
    (h : ∀ kind js ts, sizeOf js < sizeOf j → R kind js ts → R' kind js ts)
    (item : SpellsItem R kind j t) : SpellsItem R' kind j t := by
  cases item with
  | predicate spelled nonempty => exact .predicate spelled nonempty
  | @disjunction items _ nonempty inside =>
      refine .disjunction nonempty (h _ _ _ ?_ inside)
      simp only [Json.object.sizeOf_spec, List.cons.sizeOf_spec, Prod.mk.sizeOf_spec,
        Json.array.sizeOf_spec]
      omega
  | @query fields q _ record nonempty inside =>
      refine .query record nonempty (h _ _ _ ?_ inside)
      have := sizeOf_value_lt record.entries
      simp only [Json.object.sizeOf_spec, Json.array.sizeOf_spec] at this ⊢
      omega

/-! ### Reading lists -/

theorem spells_cons {kind : ListKind} {js : List Json} {ts : List QueryTree} :
    Spells kind (j :: js) ts ↔
      ∃ t, SpellsItem Spells kind j t ∧ ∃ rest, Spells kind js rest ∧ t :: rest = ts := by
  constructor
  · intro h
    cases h with
    | predicate spelled nonempty rest => exact ⟨_, .predicate spelled nonempty, _, rest, rfl⟩
    | disjunction nonempty inside rest => exact ⟨_, .disjunction nonempty inside, _, rest, rfl⟩
    | query record nonempty inside rest => exact ⟨_, .query record nonempty inside, _, rest, rfl⟩
  · rintro ⟨t, item, rest, hrest, rfl⟩
    cases item with
    | predicate spelled nonempty => exact .predicate spelled nonempty hrest
    | disjunction nonempty inside => exact .disjunction nonempty inside hrest
    | query record nonempty inside => exact .query record nonempty inside hrest

-- By induction on the size of the list: both what is inside of the first item and what comes behind
-- it is smaller.
/-- **A list is read exactly as it is spelled.** -/
theorem readList_eq_ok {kind : ListKind} {js : List Json} {ts : List QueryTree} :
    readList location index js kind = .ok ts ↔ Spells kind js ts := by
  induction hn : sizeOf js using Nat.strongRecOn generalizing js kind location index ts with
  | ind n ih =>
      cases js with
      | nil =>
          rw [readList_nil, Except.ok.injEq]
          constructor
          · rintro rfl
            exact .nil kind
          · rintro ⟨⟩
            rfl
      | cons j js =>
          subst hn
          have item (t : QueryTree) : readItem (location.item index kind) j kind = .ok t ↔
              SpellsItem Spells kind j t := by
            have inside (inner : ListKind) (items : List Json) (ts : List QueryTree)
                (smaller : sizeOf items < sizeOf j) :
                readList (location.item index kind) 0 items inner = .ok ts ↔
                  Spells inner items ts := by
              refine ih _ ?_ rfl
              rw [List.cons.sizeOf_spec]
              omega
            rw [readItem_eq_ok]
            exact ⟨.mono fun inner items ts smaller => (inside inner items ts smaller).mp,
              .mono fun inner items ts smaller => (inside inner items ts smaller).mpr⟩
          have tail (rest : List QueryTree) : readList location (index + 1) js kind = .ok rest ↔
              Spells kind js rest := by
            refine ih _ ?_ rfl
            rw [List.cons.sizeOf_spec]
            omega
          simp only [readList_cons, spells_cons, bind_eq_ok, item, tail, pure, Except.pure,
            Except.ok.injEq]

/-- **A query is read exactly as it is spelled.** -/
theorem readQuery_eq_ok : readQuery j = .ok t ↔ SpellsQuery j t := by
  have read : readQuery j = .ok t ↔ ∃ q, SpellsQueryRecord j q ∧ q.toTree = .ok t := by
    simp only [← QueryFields.ofJson_eq_ok]
    rw [readQuery]
    cases QueryFields.ofJson j <;> simp
  have toTree (q : QueryFields) : q.toTree = .ok t ↔ q.entries ≠ [] ∧
      ∃ children, Spells .entries q.entries children ∧ t = .all children q.negated := by
    have inside (children : List QueryTree) :
        readEntries .root 0 q.entries = .ok children ↔ Spells .entries q.entries children := by
      rw [← readList_eq_ok, readList]
    simp only [QueryFields.toTree, ite_error_eq_ok, map_eq_ok, List.isEmpty_eq_false_iff, inside]
  simp only [read, toTree]
  constructor
  · rintro ⟨q, spelled, nonempty, children, inside, rfl⟩
    exact .mk spelled nonempty inside
  · rintro ⟨spelled, nonempty, inside⟩
    exact ⟨_, spelled, nonempty, _, inside, rfl⟩

end FacetQuery.Wire
