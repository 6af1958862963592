import FacetQuery.Wire.Scalar

/-!
# Records of the wire form

A record is written as an object, or as the array of its fields in the order of their
declaration.  In an object the fields are visited in the order in which they stand and
the first defect counts; fields that are missing are noticed last.  In an array, fields
at the end that have a default may be missing.

There are three records below a request:

* a query has `not` (default `false`) and `and`, the list of its entries;
* a disjunction has `or`, the list of its alternatives;
* a predicate has `property`, `values` and `not` (default `false`).

The entries and alternatives are kept as they are: of what kind they are is decided
later, from their keys.
-/

namespace FacetQuery.Wire

variable {α ρ : Type}

def required (name : String) : Option α → Except Mismatch α
  | some a => .ok a
  | none => .error (.missingField name)

/-- Enters the value of a field that must not be there yet.  That it is there is found out
before the value is looked at. -/
def enter (name : String) (old : Option α) (value : Except Mismatch α) :
    Except Mismatch (Option α) :=
  if old.isSome then .error (.repeatedField name) else value.map some

def addFields (add : ρ → String → Json → Except Mismatch ρ) (r : ρ) :
    List (String × Json) → Except Mismatch ρ
  | [] => .ok r
  | (name, value) :: rest => do addFields add (← add r name value) rest

/-! ### Queries -/

structure QueryFields where
  negated : Bool
  entries : List Json

/-- The fields of a query that have been seen.  A field is taken as seen with its value, so a
default is filled in only at the end. -/
structure QueryParts where
  negated : Option Bool
  entries : Option (List Json)

def queryShape : RecordShape :=
  ⟨"WireQuery", ["not", "and"]⟩

def QueryParts.add (p : QueryParts) (name : String) (value : Json) :
    Except Mismatch QueryParts :=
  if name = "not" then do
    pure { p with negated := ← enter name p.negated (readBool value) }
  else if name = "and" then do
    pure { p with entries := ← enter name p.entries (readItems value) }
  else throw (.unknownField name queryShape)

def QueryFields.ofObject (fields : List (String × Json)) : Except Mismatch QueryFields := do
  let p ← addFields QueryParts.add ⟨none, none⟩ fields
  pure ⟨p.negated.getD false, ← required "and" p.entries⟩

/-- The query of an array with the given items.  A field that is missing is noticed when the
fields before it have been read, and an item too many when all of them have. -/
def QueryFields.ofArray : List Json → Except Mismatch QueryFields
  | [] => throw (.tooShort 1 queryShape)
  | [negated] => do
    let _ ← readBool negated
    throw (.tooShort 1 queryShape)
  | negated :: entries :: more => do
    let negated ← readBool negated
    let entries ← readItems entries
    if more.isEmpty then pure ⟨negated, entries⟩ else throw (.tooLong (more.length + 2))

def QueryFields.ofJson : Json → Except Mismatch QueryFields
  | .object fields => ofObject fields
  | .array items => ofArray items
  | j => .error (wrongKind j (.record queryShape))

/-! ### Disjunctions -/

def disjunctionShape : RecordShape :=
  ⟨"WireOr", ["or"]⟩

def addAlternatives (alternatives : Option (List Json)) (name : String) (value : Json) :
    Except Mismatch (Option (List Json)) :=
  if name = "or" then enter name alternatives (readItems value)
  else throw (.unknownField name disjunctionShape)

/-- The alternatives of the disjunction of an object with the given fields. -/
def alternativesOfObject (fields : List (String × Json)) : Except Mismatch (List Json) := do
  required "or" (← addFields addAlternatives none fields)

/-! ### Predicates -/

structure PredicateFields where
  property : String
  values : List Value
  negated : Bool

structure PredicateParts where
  property : Option String
  values : Option (List Value)
  negated : Option Bool

def predicateShape : RecordShape :=
  ⟨"WirePredicate", ["property", "values", "not"]⟩

def PredicateParts.add (p : PredicateParts) (name : String) (value : Json) :
    Except Mismatch PredicateParts :=
  if name = "property" then do
    pure { p with property := ← enter name p.property (readText value) }
  else if name = "values" then do
    pure { p with values := ← enter name p.values (readValues value) }
  else if name = "not" then do
    pure { p with negated := ← enter name p.negated (readBool value) }
  else throw (.unknownField name predicateShape)

def PredicateFields.ofObject (fields : List (String × Json)) :
    Except Mismatch PredicateFields := do
  let p ← addFields PredicateParts.add ⟨none, none, none⟩ fields
  let property ← required "property" p.property
  let values ← required "values" p.values
  pure ⟨property, values, p.negated.getD false⟩

def PredicateFields.ofArray : List Json → Except Mismatch PredicateFields
  | [] => throw (.tooShort 0 predicateShape)
  | [property] => do
    let _ ← readText property
    throw (.tooShort 1 predicateShape)
  | [property, values] => do
    pure ⟨← readText property, ← readValues values, false⟩
  | property :: values :: negated :: more => do
    let property ← readText property
    let values ← readValues values
    let negated ← readBool negated
    if more.isEmpty then pure ⟨property, values, negated⟩
    else throw (.tooLong (more.length + 3))

def PredicateFields.ofJson : Json → Except Mismatch PredicateFields
  | .object fields => ofObject fields
  | .array items => ofArray items
  | j => .error (wrongKind j (.record predicateShape))

/-! ### What a record holds is smaller than the record -/

/-- Adding the fields of an object keeps a property that holds at the start and is kept by
every field. -/
theorem addFields_induction {add : ρ → String → Json → Except Mismatch ρ} {P : ρ → Prop}
    {fields : List (String × Json)} {r s : ρ} (start : P r)
    (step : ∀ r s name value, (name, value) ∈ fields → P r → add r name value = .ok s → P s)
    (h : addFields add r fields = .ok s) : P s := by
  induction fields generalizing r with
  | nil => cases h; exact start
  | cons f rest ih =>
    obtain ⟨name, value⟩ := f
    cases ha : add r name value with
    | error e => simp [addFields, ha, bind, Except.bind] at h
    | ok r' =>
      simp only [addFields, ha, bind, Except.bind] at h
      exact ih (step r r' name value (by simp) start ha)
        (fun a b n v hm => step a b n v (List.mem_cons_of_mem _ hm)) h

theorem sizeOf_readItems {j : Json} {items : List Json} (h : readItems j = .ok items) :
    sizeOf items < sizeOf j := by
  cases j <;> simp [readItems] at h
  subst h
  simp

theorem enter_eq_ok {name : String} {old new : Option α} {value : Except Mismatch α}
    (h : enter name old value = .ok new) : ∃ a, value = .ok a ∧ new = some a := by
  unfold enter at h
  split at h
  · cases h
  · cases value with
    | error e => simp [Except.map] at h
    | ok a =>
      simp only [Except.map, Except.ok.injEq] at h
      exact ⟨a, rfl, h.symm⟩

theorem sizeOf_value_lt {name : String} {value : Json} {fields : List (String × Json)}
    (h : (name, value) ∈ fields) : sizeOf value < sizeOf fields := by
  have := List.sizeOf_lt_of_mem h
  simp only [Prod.mk.sizeOf_spec] at this
  omega

/-- The entries of a query are smaller than the fields of its object. -/
theorem QueryFields.sizeOf_entries {fields : List (String × Json)} {q : QueryFields}
    (h : ofObject fields = .ok q) : sizeOf q.entries < sizeOf fields := by
  unfold ofObject at h
  cases hp : addFields QueryParts.add ⟨none, none⟩ fields with
  | error e => simp [hp, bind, Except.bind] at h
  | ok p =>
    have bound : ∀ items, p.entries = some items → sizeOf items < sizeOf fields := by
      refine addFields_induction (P := fun p => ∀ items, p.entries = some items →
        sizeOf items < sizeOf fields) (by simp) ?_ hp
      intro r s name value hmem hr hadd items hitems
      have hlt := sizeOf_value_lt hmem
      unfold QueryParts.add at hadd
      split at hadd
      · cases he : enter name r.negated (readBool value) with
        | error e => simp [he, bind, Except.bind] at hadd
        | ok n =>
          simp only [he, bind, Except.bind, pure, Except.pure, Except.ok.injEq] at hadd
          subst hadd
          exact hr items hitems
      · split at hadd
        · cases he : enter name r.entries (readItems value) with
          | error e => simp [he, bind, Except.bind] at hadd
          | ok n =>
            simp only [he, bind, Except.bind, pure, Except.pure, Except.ok.injEq] at hadd
            subst hadd
            obtain ⟨a, ha, rfl⟩ := enter_eq_ok he
            cases hitems
            exact Nat.lt_trans (sizeOf_readItems ha) hlt
        · cases hadd
    simp only [hp, bind, Except.bind] at h
    cases he : p.entries with
    | none => simp [he, required] at h
    | some items =>
      simp only [he, required, pure, Except.pure, Except.ok.injEq] at h
      subst h
      exact bound items he

/-- The alternatives of a disjunction are smaller than the fields of its object. -/
theorem sizeOf_alternatives {fields : List (String × Json)} {items : List Json}
    (h : alternativesOfObject fields = .ok items) : sizeOf items < sizeOf fields := by
  unfold alternativesOfObject at h
  cases hp : addFields addAlternatives none fields with
  | error e => simp [hp, bind, Except.bind] at h
  | ok p =>
    have bound : ∀ items, p = some items → sizeOf items < sizeOf fields := by
      refine addFields_induction (P := fun p => ∀ items, p = some items →
        sizeOf items < sizeOf fields) (by simp) ?_ hp
      intro r s name value hmem _ hadd items hitems
      unfold addAlternatives at hadd
      split at hadd
      · obtain ⟨a, ha, rfl⟩ := enter_eq_ok hadd
        cases hitems
        exact Nat.lt_trans (sizeOf_readItems ha) (sizeOf_value_lt hmem)
      · cases hadd
    simp only [hp, bind, Except.bind] at h
    cases p with
    | none => simp [required] at h
    | some found =>
      simp only [required, Except.ok.injEq] at h
      exact h ▸ bound found rfl

end FacetQuery.Wire
