import Mathlib.Data.List.Forall2
import Mathlib.Data.List.Induction
import Mathlib.Data.List.Nodup
import FacetQuery.Wire.Record

/-!
# How records are spelled

A reader of a record is a loop over the fields of an object: it keeps what it has seen and fails
at the first field that it does not like.  The grammar of a record says nothing of loops.  A
record is spelled by an object whose keys are known and differ, in which every field that has to
be there is there, in any order; or by the array of its fields.

This module says that the readers accept what the grammar spells and nothing else, and read it as
what it spells: `QueryFields.ofJson_eq_ok`, `alternativesOfObject_eq_ok` and
`PredicateFields.ofJson_eq_ok`.

### What is load-bearing

A loop over fields is a fold from the left, so it is compared with the grammar by induction from
the right (`addFields_eq_ok`): the last field of an object is the one that was added last.  What a
loop has seen of one field is a slot (`Slot`), and a slot is filled exactly when its name is new
(`slot_enter`).  No other fact about the order of the fields is used.
-/

namespace FacetQuery.Wire

variable {α ρ : Type} {name : String} {fields : List (String × Json)}

/-! ### Computations that succeed -/

theorem bind_eq_ok {ε β : Type} {x : Except ε α} {f : α → Except ε β} {b : β} :
    (x >>= f) = .ok b ↔ ∃ a, x = .ok a ∧ f a = .ok b := by
  cases x <;> simp [bind, Except.bind]

theorem map_eq_ok {ε β : Type} {x : Except ε α} {f : α → β} {b : β} :
    x.map f = .ok b ↔ ∃ a, x = .ok a ∧ b = f a := by
  cases x <;> simp [Except.map, eq_comm]

theorem mapError_eq_ok {ε ε' : Type} {x : Except ε α} {f : ε → ε'} {a : α} :
    x.mapError f = .ok a ↔ x = .ok a := by
  cases x <;> simp [Except.mapError]

theorem ite_error_eq_ok {ε : Type} {c : Bool} {e : ε} {x : Except ε α} {a : α} :
    (if c then .error e else x) = .ok a ↔ c = false ∧ x = .ok a := by
  cases c <;> simp

theorem required_eq_ok {slot : Option α} {a : α} : required name slot = .ok a ↔ slot = some a := by
  cases slot <;> simp [required]

/-! ### Scalars -/

/-- **The spelling of a literal.**  A whole number is a signed 64-bit integer if it can be, and
the nearest double otherwise. -/
inductive SpellsScalar : Json → Value → Prop where
  | bool (b : Bool) : SpellsScalar (.bool b) (.bool b)
  | int (w : Int64) : SpellsScalar (.int w.toInt) (.int w)
  | wide {i : Int} (outside : ∀ w : Int64, w.toInt ≠ i) :
      SpellsScalar (.int i) (.float (Binary64.ofInt i))
  | float (x : Binary64) : SpellsScalar (.float x) (.float x)
  | text (s : String) : SpellsScalar (.text s) (.text s)

/-- The spelling of a list of literals. -/
def SpellsScalars (j : Json) (values : List Value) : Prop :=
  ∃ items, j = .array items ∧ List.Forall₂ SpellsScalar items values

theorem readBool_eq_ok (j : Json) (b : Bool) : readBool j = .ok b ↔ j = .bool b := by
  cases j <;> simp [readBool]

theorem readText_eq_ok (j : Json) (s : String) : readText j = .ok s ↔ j = .text s := by
  cases j <;> simp [readText]

theorem readItems_eq_ok (j : Json) (items : List Json) :
    readItems j = .ok items ↔ j = .array items := by
  cases j <;> simp [readItems]

theorem readValue_eq_ok {j : Json} {v : Value} : readValue j = .ok v ↔ SpellsScalar j v := by
  constructor
  · intro h
    cases j with
    | bool b => cases h; exact .bool b
    | int i =>
        rw [readValue] at h
        cases hw : int64? i with
        | some w =>
            rw [hw] at h
            cases h
            rw [← int64?_eq_some_iff.mp hw]
            exact .int w
        | none =>
            rw [hw] at h
            cases h
            refine .wide fun w hi => ?_
            rw [int64?_eq_some_iff.mpr hi] at hw
            cases hw
    | float x => cases h; exact .float x
    | text s => cases h; exact .text s
    | null | array | object => cases h
  · intro h
    cases h with
    | bool b => rfl
    | int w => rw [readValue, int64?_eq_some_iff.mpr rfl]
    | @wide i outside =>
        rw [readValue]
        cases hw : int64? i with
        | some w => exact absurd (int64?_eq_some_iff.mp hw) (outside w)
        | none => rfl
    | float x => rfl
    | text s => rfl

theorem mapM_readValue_eq_ok {items : List Json} {values : List Value} :
    items.mapM readValue = .ok values ↔ List.Forall₂ SpellsScalar items values := by
  induction items generalizing values with
  | nil => cases values <;> simp [pure, Except.pure]
  | cons j items ih =>
      rw [List.mapM_cons]
      cases values with
      | nil =>
          cases readValue j <;> cases items.mapM readValue <;>
            simp [bind, Except.bind, pure, Except.pure]
      | cons v values =>
          rw [List.forall₂_cons, ← readValue_eq_ok, ← ih]
          cases readValue j <;> cases items.mapM readValue <;>
            simp [bind, Except.bind, pure, Except.pure]

theorem readValues_eq_ok (j : Json) (values : List Value) :
    readValues j = .ok values ↔ SpellsScalars j values := by
  cases j <;> simp [readValues, readItems, SpellsScalars, bind, Except.bind, mapM_readValue_eq_ok]

/-! ### Fields -/

/-- The keys of the fields are among the given names, and none occurs twice. -/
structure OnlyKeys (names : List String) (fields : List (String × Json)) : Prop where
  nodup : (fields.map Prod.fst).Nodup
  known : fields.map Prod.fst ⊆ names

theorem onlyKeys_nil (names : List String) : OnlyKeys names [] :=
  ⟨List.nodup_nil, List.nil_subset names⟩

theorem onlyKeys_append {names : List String} {f : String × Json} :
    OnlyKeys names (fields ++ [f]) ↔
      OnlyKeys names fields ∧ f.1 ∉ fields.map Prod.fst ∧ f.1 ∈ names := by
  have nodup : ((fields ++ [f]).map Prod.fst).Nodup ↔
      f.1 ∉ fields.map Prod.fst ∧ (fields.map Prod.fst).Nodup := by
    rw [List.map_append, List.nodup_append_comm]
    exact List.nodup_cons
  have known : (fields ++ [f]).map Prod.fst ⊆ names ↔
      fields.map Prod.fst ⊆ names ∧ f.1 ∈ names := by
    rw [List.map_append, List.append_subset]
    simp
  constructor
  · rintro ⟨hnodup, hknown⟩
    obtain ⟨fresh, hnodup⟩ := nodup.mp hnodup
    obtain ⟨hknown, hname⟩ := known.mp hknown
    exact ⟨⟨hnodup, hknown⟩, fresh, hname⟩
  · rintro ⟨⟨hnodup, hknown⟩, fresh, hname⟩
    exact ⟨nodup.mpr ⟨fresh, hnodup⟩, known.mpr ⟨hknown, hname⟩⟩

/-- What the fields say of one name: nothing, or what the value under this name spells. -/
def Slot (name : String) (spells : Json → α → Prop) (fields : List (String × Json)) :
    Option α → Prop
  | none => name ∉ fields.map Prod.fst
  | some a => ∃ value, (name, value) ∈ fields ∧ spells value a

/-- What one more field does to what has been seen of a name: it is entered under its own name
and leaves the others alone. -/
def Enters (name : String) (read : Json → Except Mismatch α) (f : String × Json)
    (old new : Option α) : Prop :=
  if f.1 = name then enter name old (read f.2) = .ok new else old = new

section Slot

variable {spells : Json → α → Prop} {read : Json → Except Mismatch α} {f : String × Json}
  {old new : Option α}

theorem slot_nil : Slot name spells [] new ↔ new = none := by
  cases new <;> simp [Slot]

theorem enter_eq_ok_iff {value : Except Mismatch α} :
    enter name old value = .ok new ↔ old = none ∧ ∃ a, value = .ok a ∧ new = some a := by
  cases old with
  | some a => simp [enter]
  | none => cases value <;> simp [enter, Except.map, eq_comm]

/-- A field is entered only if its name is new. -/
theorem Enters.fresh (h : Slot f.1 spells fields old) (henters : Enters f.1 read f old new) :
    f.1 ∉ fields.map Prod.fst := by
  rw [Enters, if_pos rfl, enter_eq_ok_iff] at henters
  obtain ⟨rfl, -⟩ := henters
  exact h

/-- **What is seen with one more field** is what entering it makes of what was seen without. -/
theorem slot_append (reads : ∀ j a, read j = .ok a ↔ spells j a)
    (fresh : f.1 ∉ fields.map Prod.fst) :
    Slot name spells (fields ++ [f]) new ↔
      ∃ old, Slot name spells fields old ∧ Enters name read f old new := by
  obtain ⟨other, value⟩ := f
  by_cases hname : other = name
  · subst hname
    simp only [Enters, if_pos, enter_eq_ok_iff, reads]
    constructor
    · intro hnew
      cases new with
      | none => simp [Slot] at hnew
      | some a =>
          obtain ⟨v, hv, hspells⟩ := hnew
          -- The name was not there before, so the value under it is the one that is added.
          rcases List.mem_append.mp hv with hv | hv
          · exact absurd (List.mem_map_of_mem hv) fresh
          · cases List.mem_singleton.mp hv
            exact ⟨none, fresh, rfl, a, hspells, rfl⟩
    · rintro ⟨_, -, rfl, a, hspells, rfl⟩
      exact ⟨value, by simp, hspells⟩
  · simp only [Enters, if_neg hname, exists_eq_right]
    cases new <;> simp [Slot, Ne.symm hname]

end Slot

/-- **A loop over fields**, described by what it has seen: nothing at first, and with one more
field what adding this field makes of what it had seen before. -/
theorem addFields_eq_ok {add : ρ → String → Json → Except Mismatch ρ}
    {Seen : ρ → List (String × Json) → Prop} {init : ρ} (start : ∀ s, Seen s [] ↔ s = init)
    (step : ∀ s fields f, Seen s (fields ++ [f]) ↔ ∃ r, Seen r fields ∧ add r f.1 f.2 = .ok s)
    {s : ρ} :
    addFields add init fields = .ok s ↔ Seen s fields := by
  have append (r : ρ) (fields : List (String × Json)) (f : String × Json) :
      addFields add r (fields ++ [f]) = addFields add r fields >>= fun r => add r f.1 f.2 := by
    induction fields generalizing r with
    | nil => cases h : add r f.1 f.2 <;> simp [addFields, h, bind, Except.bind]
    | cons f fields ih =>
        cases h : add r f.1 f.2 with
        | error e => simp [addFields, h, bind, Except.bind]
        | ok r' => simpa [addFields, h, bind, Except.bind] using ih r'
  induction fields using List.reverseRecOn generalizing s with
  | nil => rw [start, addFields, Except.ok.injEq, eq_comm]
  | append_singleton fields f ih =>
      rw [append, step, bind_eq_ok]
      simp only [ih]

/-- The value of the field `not`, which may be missing. -/
def SpellsFlag (fields : List (String × Json)) (b : Bool) : Prop :=
  ("not", .bool b) ∈ fields ∨ b = false ∧ "not" ∉ fields.map Prod.fst

theorem spellsFlag_iff {b : Bool} :
    SpellsFlag fields b ↔
      ∃ slot : Option Bool, Slot "not" (fun j b => j = .bool b) fields slot ∧
        slot.getD false = b := by
  rw [Option.exists]
  simp [Slot, SpellsFlag, eq_comm, or_comm, and_comm]

/-! ### Queries -/

/-- **The spelling of a query by the fields of an object.** -/
structure SpellsQueryFields (fields : List (String × Json)) (q : QueryFields) : Prop where
  only : OnlyKeys queryShape.fields fields
  negated : SpellsFlag fields q.negated
  entries : ("and", .array q.entries) ∈ fields

structure QueryParts.Seen (p : QueryParts) (fields : List (String × Json)) : Prop where
  only : OnlyKeys queryShape.fields fields
  negated : Slot "not" (fun j b => j = .bool b) fields p.negated
  entries : Slot "and" (fun j items => j = .array items) fields p.entries

theorem QueryParts.add_eq_ok {p s : QueryParts} {f : String × Json} :
    p.add f.1 f.2 = .ok s ↔ f.1 ∈ queryShape.fields ∧
      Enters "not" readBool f p.negated s.negated ∧
      Enters "and" readItems f p.entries s.entries := by
  obtain ⟨name, value⟩ := f
  obtain ⟨negated, entries⟩ := s
  simp only [add]
  split
  · subst name
    cases h : enter "not" p.negated (readBool value) <;>
      simp [h, Enters, queryShape, bind, Except.bind, pure, Except.pure]
  · split
    · subst name
      cases h : enter "and" p.entries (readItems value) <;>
        simp [h, Enters, queryShape, bind, Except.bind, pure, Except.pure, and_comm]
    · simp [*, queryShape, throw, throwThe, MonadExceptOf.throw]

theorem QueryParts.seen_append (s : QueryParts) (fields : List (String × Json))
    (f : String × Json) :
    s.Seen (fields ++ [f]) ↔ ∃ r : QueryParts, r.Seen fields ∧ r.add f.1 f.2 = .ok s := by
  simp only [add_eq_ok]
  constructor
  · rintro ⟨only, hnot, hand⟩
    obtain ⟨only, fresh, known⟩ := onlyKeys_append.mp only
    obtain ⟨negated, hnot, henters⟩ := (slot_append readBool_eq_ok fresh).mp hnot
    obtain ⟨entries, hand, henters'⟩ := (slot_append readItems_eq_ok fresh).mp hand
    exact ⟨⟨negated, entries⟩, ⟨only, hnot, hand⟩, known, henters, henters'⟩
  · rintro ⟨r, ⟨only, hnot, hand⟩, known, henters, henters'⟩
    have fresh : f.1 ∉ fields.map Prod.fst := by
      obtain ⟨name, value⟩ := f
      simp only [queryShape, List.mem_cons, List.not_mem_nil, or_false] at known
      rcases known with rfl | rfl
      · exact henters.fresh hnot
      · exact henters'.fresh hand
    exact ⟨onlyKeys_append.mpr ⟨only, fresh, known⟩,
      (slot_append readBool_eq_ok fresh).mpr ⟨_, hnot, henters⟩,
      (slot_append readItems_eq_ok fresh).mpr ⟨_, hand, henters'⟩⟩

theorem QueryParts.seen_nil (s : QueryParts) : s.Seen [] ↔ s = ⟨none, none⟩ := by
  obtain ⟨negated, entries⟩ := s
  rw [QueryParts.mk.injEq]
  constructor
  · rintro ⟨-, hnot, hand⟩
    exact ⟨slot_nil.mp hnot, slot_nil.mp hand⟩
  · rintro ⟨hnot, hand⟩
    exact ⟨onlyKeys_nil _, slot_nil.mpr hnot, slot_nil.mpr hand⟩

theorem QueryFields.ofObject_eq_ok {q : QueryFields} :
    ofObject fields = .ok q ↔ SpellsQueryFields fields q := by
  have run (p : QueryParts) :
      addFields QueryParts.add ⟨none, none⟩ fields = .ok p ↔ p.Seen fields :=
    addFields_eq_ok QueryParts.seen_nil QueryParts.seen_append
  have seen : ofObject fields = .ok q ↔ ∃ p : QueryParts, p.Seen fields ∧
      p.negated.getD false = q.negated ∧ p.entries = some q.entries := by
    simp only [ofObject, bind_eq_ok, run, required_eq_ok]
    refine exists_congr fun p => and_congr_right fun _ => ⟨?_, ?_⟩
    · rintro ⟨entries, hentries, ⟨⟩⟩
      exact ⟨rfl, hentries⟩
    · rintro ⟨hnegated, hentries⟩
      exact ⟨q.entries, hentries, by rw [hnegated]; rfl⟩
  rw [seen]
  constructor
  · rintro ⟨⟨negated, entries⟩, ⟨only, hnot, hand⟩, hflag, rfl⟩
    obtain ⟨_, hand, rfl⟩ := hand
    exact ⟨only, spellsFlag_iff.mpr ⟨negated, hnot, hflag⟩, hand⟩
  · rintro ⟨only, hflag, hand⟩
    obtain ⟨negated, hnot, hflag⟩ := spellsFlag_iff.mp hflag
    exact ⟨⟨negated, some q.entries⟩, ⟨only, hnot, _, hand, rfl⟩, hflag, rfl⟩

/-- **The spelling of a query**: an object, or the array of both fields. -/
inductive SpellsQueryRecord : Json → QueryFields → Prop where
  | object {fields : List (String × Json)} {q : QueryFields} (h : SpellsQueryFields fields q) :
      SpellsQueryRecord (.object fields) q
  | array (negated : Bool) (entries : List Json) :
      SpellsQueryRecord (.array [.bool negated, .array entries]) ⟨negated, entries⟩

theorem QueryFields.ofArray_eq_ok {items : List Json} {q : QueryFields} :
    ofArray items = .ok q ↔ SpellsQueryRecord (.array items) q := by
  match items with
  | [] => exact ⟨nofun, nofun⟩
  | [first] =>
      refine ⟨fun h => ?_, nofun⟩
      obtain ⟨_, -, h⟩ := bind_eq_ok.mp h
      cases h
  | first :: second :: more =>
      simp only [ofArray, bind_eq_ok, readBool_eq_ok, readItems_eq_ok]
      constructor
      · rintro ⟨negated, rfl, entries, rfl, h⟩
        cases more with
        | nil =>
            cases h
            exact .array negated entries
        | cons => cases h
      · rintro ⟨⟩
        exact ⟨_, rfl, _, rfl, rfl⟩

/-- **A query is read exactly as it is spelled.** -/
theorem QueryFields.ofJson_eq_ok {j : Json} {q : QueryFields} :
    ofJson j = .ok q ↔ SpellsQueryRecord j q := by
  cases j with
  | object fields =>
      refine ofObject_eq_ok.trans ⟨.object, ?_⟩
      rintro ⟨h⟩
      exact h
  | array items => exact ofArray_eq_ok
  | null | bool | int | float | text => exact ⟨nofun, nofun⟩

/-! ### Disjunctions -/

theorem addAlternatives_eq_ok {slot new : Option (List Json)} {f : String × Json} :
    addAlternatives slot f.1 f.2 = .ok new ↔
      f.1 = "or" ∧ slot = none ∧ ∃ items, f.2 = .array items ∧ new = some items := by
  rw [addAlternatives]
  split
  · simp only [*, true_and, enter_eq_ok_iff, readItems_eq_ok]
  · simp [*, throw, throwThe, MonadExceptOf.throw]

/-- **A disjunction is an object with one field.** -/
theorem alternativesOfObject_eq_ok {items : List Json} :
    alternativesOfObject fields = .ok items ↔ fields = [("or", .array items)] := by
  simp only [alternativesOfObject, bind_eq_ok, required_eq_ok, exists_eq_right]
  match fields with
  | [] => simp [addFields]
  | [(name, value)] =>
      simp only [addFields, bind_eq_ok, addAlternatives_eq_ok (f := (name, value))]
      simp
  | (name, value) :: (other, value') :: rest =>
      -- The second field is unknown, or it repeats the first one.
      simp only [addFields, bind_eq_ok, addAlternatives_eq_ok (f := (name, value)),
        addAlternatives_eq_ok (f := (other, value'))]
      simp

/-! ### Predicates -/

/-- **The spelling of a predicate by the fields of an object.** -/
structure SpellsPredicateFields (fields : List (String × Json)) (p : PredicateFields) : Prop where
  only : OnlyKeys predicateShape.fields fields
  property : ("property", .text p.property) ∈ fields
  values : ∃ value, ("values", value) ∈ fields ∧ SpellsScalars value p.values
  negated : SpellsFlag fields p.negated

structure PredicateParts.Seen (p : PredicateParts) (fields : List (String × Json)) : Prop where
  only : OnlyKeys predicateShape.fields fields
  property : Slot "property" (fun j s => j = .text s) fields p.property
  values : Slot "values" SpellsScalars fields p.values
  negated : Slot "not" (fun j b => j = .bool b) fields p.negated

theorem PredicateParts.seen_nil (s : PredicateParts) : s.Seen [] ↔ s = ⟨none, none, none⟩ := by
  obtain ⟨property, values, negated⟩ := s
  rw [PredicateParts.mk.injEq]
  constructor
  · rintro ⟨-, hproperty, hvalues, hnot⟩
    exact ⟨slot_nil.mp hproperty, slot_nil.mp hvalues, slot_nil.mp hnot⟩
  · rintro ⟨hproperty, hvalues, hnot⟩
    exact ⟨onlyKeys_nil _, slot_nil.mpr hproperty, slot_nil.mpr hvalues, slot_nil.mpr hnot⟩

theorem PredicateParts.add_eq_ok {p s : PredicateParts} {f : String × Json} :
    p.add f.1 f.2 = .ok s ↔ f.1 ∈ predicateShape.fields ∧
      Enters "property" readText f p.property s.property ∧
      Enters "values" readValues f p.values s.values ∧
      Enters "not" readBool f p.negated s.negated := by
  obtain ⟨name, value⟩ := f
  obtain ⟨property, values, negated⟩ := s
  simp only [add]
  split
  · subst name
    cases h : enter "property" p.property (readText value) <;>
      simp [h, Enters, predicateShape, bind, Except.bind, pure, Except.pure]
  · split
    · subst name
      cases h : enter "values" p.values (readValues value) <;>
        simp [h, Enters, predicateShape, bind, Except.bind, pure, Except.pure]
    · split
      · subst name
        cases h : enter "not" p.negated (readBool value) <;>
          simp [h, Enters, predicateShape, bind, Except.bind, pure, Except.pure]
      · simp [*, predicateShape, throw, throwThe, MonadExceptOf.throw]

theorem PredicateParts.seen_append (s : PredicateParts) (fields : List (String × Json))
    (f : String × Json) :
    s.Seen (fields ++ [f]) ↔ ∃ r : PredicateParts, r.Seen fields ∧ r.add f.1 f.2 = .ok s := by
  simp only [add_eq_ok]
  constructor
  · rintro ⟨only, hproperty, hvalues, hnot⟩
    obtain ⟨only, fresh, known⟩ := onlyKeys_append.mp only
    obtain ⟨property, hproperty, entersProperty⟩ :=
      (slot_append readText_eq_ok fresh).mp hproperty
    obtain ⟨values, hvalues, entersValues⟩ := (slot_append readValues_eq_ok fresh).mp hvalues
    obtain ⟨negated, hnot, entersNot⟩ := (slot_append readBool_eq_ok fresh).mp hnot
    exact ⟨⟨property, values, negated⟩, ⟨only, hproperty, hvalues, hnot⟩, known, entersProperty,
      entersValues, entersNot⟩
  · rintro ⟨r, ⟨only, hproperty, hvalues, hnot⟩, known, entersProperty, entersValues, entersNot⟩
    have fresh : f.1 ∉ fields.map Prod.fst := by
      obtain ⟨name, value⟩ := f
      simp only [predicateShape, List.mem_cons, List.not_mem_nil, or_false] at known
      rcases known with rfl | rfl | rfl
      · exact entersProperty.fresh hproperty
      · exact entersValues.fresh hvalues
      · exact entersNot.fresh hnot
    exact ⟨onlyKeys_append.mpr ⟨only, fresh, known⟩,
      (slot_append readText_eq_ok fresh).mpr ⟨_, hproperty, entersProperty⟩,
      (slot_append readValues_eq_ok fresh).mpr ⟨_, hvalues, entersValues⟩,
      (slot_append readBool_eq_ok fresh).mpr ⟨_, hnot, entersNot⟩⟩

theorem PredicateFields.ofObject_eq_ok {p : PredicateFields} :
    ofObject fields = .ok p ↔ SpellsPredicateFields fields p := by
  have run (s : PredicateParts) :
      addFields PredicateParts.add ⟨none, none, none⟩ fields = .ok s ↔ s.Seen fields :=
    addFields_eq_ok PredicateParts.seen_nil PredicateParts.seen_append
  have seen : ofObject fields = .ok p ↔ ∃ s : PredicateParts, s.Seen fields ∧
      s.property = some p.property ∧ s.values = some p.values ∧
      s.negated.getD false = p.negated := by
    simp only [ofObject, bind_eq_ok, run, required_eq_ok]
    refine exists_congr fun s => and_congr_right fun _ => ⟨?_, ?_⟩
    · rintro ⟨property, hproperty, values, hvalues, ⟨⟩⟩
      exact ⟨hproperty, hvalues, rfl⟩
    · rintro ⟨hproperty, hvalues, hnegated⟩
      exact ⟨p.property, hproperty, p.values, hvalues, by rw [hnegated]; rfl⟩
  rw [seen]
  constructor
  · rintro ⟨⟨_, _, negated⟩, ⟨only, hproperty, hvalues, hnot⟩, rfl, rfl, hflag⟩
    obtain ⟨_, hproperty, rfl⟩ := hproperty
    exact ⟨only, hproperty, hvalues, spellsFlag_iff.mpr ⟨negated, hnot, hflag⟩⟩
  · rintro ⟨only, hproperty, hvalues, hflag⟩
    obtain ⟨negated, hnot, hflag⟩ := spellsFlag_iff.mp hflag
    exact ⟨⟨some p.property, some p.values, negated⟩,
      ⟨only, ⟨_, hproperty, rfl⟩, hvalues, hnot⟩, rfl, rfl, hflag⟩

/-- **The spelling of a predicate**: an object, or the array of its fields, of which the last one
may be missing. -/
inductive SpellsPredicate : Json → PredicateFields → Prop where
  | object {fields : List (String × Json)} {p : PredicateFields}
      (h : SpellsPredicateFields fields p) : SpellsPredicate (.object fields) p
  | pair (property : String) {j : Json} {values : List Value} (h : SpellsScalars j values) :
      SpellsPredicate (.array [.text property, j]) ⟨property, values, false⟩
  | triple (property : String) {j : Json} {values : List Value} (h : SpellsScalars j values)
      (negated : Bool) :
      SpellsPredicate (.array [.text property, j, .bool negated]) ⟨property, values, negated⟩

theorem PredicateFields.ofArray_eq_ok {items : List Json} {p : PredicateFields} :
    ofArray items = .ok p ↔ SpellsPredicate (.array items) p := by
  match items with
  | [] => exact ⟨nofun, nofun⟩
  | [first] =>
      refine ⟨fun h => ?_, nofun⟩
      obtain ⟨_, -, h⟩ := bind_eq_ok.mp h
      cases h
  | [first, second] =>
      simp only [ofArray, bind_eq_ok, readText_eq_ok, readValues_eq_ok]
      constructor
      · rintro ⟨property, rfl, values, hvalues, ⟨⟩⟩
        exact .pair property hvalues
      · rintro (_ | ⟨property, hvalues⟩)
        exact ⟨property, rfl, _, hvalues, rfl⟩
  | first :: second :: third :: more =>
      simp only [ofArray, bind_eq_ok, readText_eq_ok, readValues_eq_ok, readBool_eq_ok]
      constructor
      · rintro ⟨property, rfl, values, hvalues, negated, rfl, h⟩
        cases more with
        | nil =>
            cases h
            exact .triple property hvalues negated
        | cons => cases h
      · rintro (_ | _ | ⟨property, hvalues, negated⟩)
        exact ⟨property, rfl, _, hvalues, negated, rfl, rfl⟩

/-- **A predicate is read exactly as it is spelled.** -/
theorem PredicateFields.ofJson_eq_ok {j : Json} {p : PredicateFields} :
    ofJson j = .ok p ↔ SpellsPredicate j p := by
  cases j with
  | object fields =>
      refine ofObject_eq_ok.trans ⟨.object, ?_⟩
      rintro ⟨h⟩
      exact h
  | array items => exact ofArray_eq_ok
  | null | bool | int | float | text => exact ⟨nofun, nofun⟩

end FacetQuery.Wire
