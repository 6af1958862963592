import FacetQuery.Query.Tree
import FacetQuery.Wire.Record

/-!
# Queries in the wire form

A query is a conjunction of entries.  An entry is a predicate, or a disjunction of
alternatives when it is an object with the key `or`; an alternative is a predicate, or
again a query when it is an object with the key `and`.

Entries and alternatives are read from left to right, each before what is inside it, and
the first defect is reported with its location.  An entry is checked for its shape first
and for an empty list second, and what it contains is looked at only then.
-/

namespace FacetQuery.Wire

/-- One step into a query, to the entry or the alternative with a position. -/
inductive Step where
  | entry (index : Nat)
  | alternative (index : Nat)
deriving DecidableEq

/-- Where something is in a query: the steps that lead to it from the root, of which there are
none for the query as a whole. -/
structure Location where
  steps : List Step
deriving DecidableEq

namespace Location

def root : Location := ⟨[]⟩

def entry (at_ : Location) (index : Nat) : Location := ⟨at_.steps ++ [.entry index]⟩

def alternative (at_ : Location) (index : Nat) : Location := ⟨at_.steps ++ [.alternative index]⟩

def stepText : Step → List Char
  | .entry index => ['.', 'a', 'n', 'd', '['] ++ Text.numeral index ++ [']']
  | .alternative index => ['.', 'o', 'r', '['] ++ Text.numeral index ++ [']']

/-- The text of a location, such as `query.and[1].or[0]`. -/
def toText (at_ : Location) : String :=
  "query" ++ String.ofList (at_.steps.flatMap stepText)

instance : ToString Location := ⟨toText⟩

end Location

inductive ListName where
  | and
  | or
  | values
deriving DecidableEq

def ListName.key : ListName → String
  | and => "and"
  | or => "or"
  | values => "values"

/-- Why a value is not a query.  The shape of the root has no location, since nothing inside it
has been looked at. -/
inductive QueryError where
  | shape (mismatch : Mismatch)
  | entry (location : Location) (mismatch : Mismatch)
  | emptyList (list : ListName) (location : Location)
deriving DecidableEq

def QueryError.message : QueryError → String
  | .shape mismatch => "malformed query: " ++ mismatch.message
  | .entry location mismatch =>
    "malformed entry at " ++ location.toText ++ ": " ++ mismatch.message
  | .emptyList list location => "empty `" ++ list.key ++ "` list at " ++ location.toText

/-- What an entry or an alternative is: an object with the key that announces a nested list, or
anything else, which is read as a predicate. -/
inductive EntryKind where
  | nested (fields : List (String × Json))
  | predicate

def EntryKind.of (key : String) : Json → EntryKind
  | .object fields => if fields.any (·.1 == key) then .nested fields else .predicate
  | _ => .predicate

theorem EntryKind.eq_object_of_nested {key : String} {j : Json} {fields : List (String × Json)}
    (h : EntryKind.of key j = .nested fields) : j = .object fields := by
  cases j <;> simp only [EntryKind.of, reduceCtorEq] at h
  split at h
  · simpa using h
  · cases h

def readPredicate (location : Location) (j : Json) : Except QueryError QueryTree :=
  match PredicateFields.ofJson j with
  | .error mismatch => .error (.entry location mismatch)
  | .ok p =>
    if p.values.isEmpty then .error (.emptyList .values location)
    else .ok (.leaf ⟨p.property, p.values⟩ p.negated)

-- What a match has found is used where the recursion is shown to end.
set_option linter.unusedVariables false in
mutual

/-- Reads the entries of the query at a location, from the one with the given position on.  An
entry is read with all that is inside it before the next one is looked at, so the first defect
in this order is the one reported. -/
def readEntries (location : Location) (index : Nat) :
    List Json → Except QueryError (List QueryTree)
  | [] => .ok []
  | j :: rest => do
    let here := location.entry index
    let child ← match hk : EntryKind.of "or" j with
      | .predicate => readPredicate here j
      | .nested fields =>
        match ha : alternativesOfObject fields with
        | .error mismatch => .error (.entry here mismatch)
        | .ok alternatives =>
          if alternatives.isEmpty then .error (.emptyList .or here)
          else (readAlternatives here 0 alternatives).map .any
    let rest ← readEntries location (index + 1) rest
    pure (child :: rest)
termination_by js => sizeOf js
decreasing_by
  · simp only [List.cons.sizeOf_spec]
    omega
  · have hlt := sizeOf_alternatives ha
    have hj := EntryKind.eq_object_of_nested hk
    subst hj
    simp only [List.cons.sizeOf_spec, Json.object.sizeOf_spec]
    omega

/-- Reads the alternatives of the disjunction at a location, from the one with the given
position on. -/
def readAlternatives (location : Location) (index : Nat) :
    List Json → Except QueryError (List QueryTree)
  | [] => .ok []
  | j :: rest => do
    let here := location.alternative index
    let child ← match hk : EntryKind.of "and" j with
      | .predicate => readPredicate here j
      | .nested fields =>
        match hq : QueryFields.ofObject fields with
        | .error mismatch => .error (.entry here mismatch)
        | .ok q =>
          if q.entries.isEmpty then .error (.emptyList .and here)
          else (readEntries here 0 q.entries).map (.all · q.negated)
    let rest ← readAlternatives location (index + 1) rest
    pure (child :: rest)
termination_by js => sizeOf js
decreasing_by
  · simp only [List.cons.sizeOf_spec]
    omega
  · have hlt := QueryFields.sizeOf_entries hq
    have hj := EntryKind.eq_object_of_nested hk
    subst hj
    simp only [List.cons.sizeOf_spec, Json.object.sizeOf_spec]
    omega

end

def QueryFields.toTree (q : QueryFields) : Except QueryError QueryTree :=
  if q.entries.isEmpty then .error (.emptyList .and .root)
  else (readEntries .root 0 q.entries).map (.all · q.negated)

def readQuery (j : Json) : Except QueryError QueryTree :=
  match QueryFields.ofJson j with
  | .error mismatch => .error (.shape mismatch)
  | .ok q => q.toTree

end FacetQuery.Wire
