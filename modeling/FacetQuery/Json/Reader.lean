import FacetQuery.Json.Draft
import FacetQuery.Json.Number

/-!
# Reading JSON

A text is read as a whole: its draft must be free of defects, its containers may be
nested `maxDepth` deep, and nothing may follow the value.  The first thing that is wrong,
in the order of the text, is reported.
-/

namespace FacetQuery

namespace JsonText.Draft

/-- How many containers may be open at once. -/
def maxDepth : Nat :=
  127

mutual

/-- The value of a draft within so many more containers.  A defect behind the last part of a
container is met after the parts, in the order of the text. -/
def toJson (depth : Nat) : Draft → Except JsonFault Json
  | null => .ok .null
  | bool b => .ok (.bool b)
  | number n => n.toJson
  | text content => content.map .text
  | array items defect =>
    match depth with
    | 0 => .error .malformed
    | depth + 1 => do
      let items ← itemsToJson depth items
      match defect with
      | none => pure (.array items)
      | some defect => throw defect.read
  | object fields defect =>
    match depth with
    | 0 => .error .malformed
    | depth + 1 => do
      let fields ← fieldsToJson depth fields
      match defect with
      | none => pure (.ofFields fields)
      | some defect => throw defect.read
  | broken defect => .error defect.read

def itemsToJson (depth : Nat) : List Draft → Except JsonFault (List Json)
  | [] => .ok []
  | item :: rest => do
    let item ← toJson depth item
    let rest ← itemsToJson depth rest
    pure (item :: rest)

def fieldsToJson (depth : Nat) :
    List (Except JsonFault String × Draft) → Except JsonFault (List (String × Json))
  | [] => .ok []
  | (key, value) :: rest => do
    let key ← key
    let value ← toJson depth value
    let rest ← fieldsToJson depth rest
    pure ((key, value) :: rest)

end

end JsonText.Draft

namespace Json

open JsonText

/-- Reads a text as one value.  What follows the value is noticed last. -/
def read (s : String) : Except JsonFault Json := do
  let (draft, more) := Draft.ofText s
  let value ← draft.toJson Draft.maxDepth
  if more then throw .malformed else pure value

end Json
end FacetQuery
