import FacetQuery.Json.Token

/-!
# Drafts of JSON values

A draft is as much of a value as a text holds.  Where the text stops being JSON, the
draft ends: an item that could not be made out is `broken`, and the containers around
it are not closed but end with the same defect.  Behind a comma of an array there is an item
even where the text ends, and it is broken then.  Every text has a draft.

A reader walks through a draft in the order of the text and so meets the defects of the
text and the defects of its content (a number out of range, a wrong type, an unpaired
surrogate) in the order in which they stand there.  Drafts serve two such readers: the
one that wants the value as a whole and the one that picks the fields it knows.
-/

namespace FacetQuery.JsonText

/-- As much of a JSON value as a text holds.  A container that is not closed carries what is
wrong behind its last part; the containers around it then end with the same defect. -/
inductive Draft where
  | null
  | bool (b : Bool)
  | number (n : NumberText)
  | text (content : Except JsonFault String)
  | array (items : List Draft) (defect : Option Defect)
  | object (fields : List (Except JsonFault String × Draft)) (defect : Option Defect)
  | broken (defect : Defect)

/-- A container that is being read: what it holds so far, the last part first. -/
inductive Frame where
  | array (items : List Draft)
  | object (fields : List (Except JsonFault String × Draft)) (key : Except JsonFault String)

inductive Awaited where
  | value
  | firstItem
  | firstKey (fields : List (Except JsonFault String × Draft))
  | key (fields : List (Except JsonFault String × Draft))
  | colon
  /-- A comma or the end of the innermost container, or nothing behind the outermost value. -/
  | separator (last : Draft)

/-- The whole draft when the text stops being JSON behind the innermost draft: no container
is closed. -/
def Draft.abandon (defect : Defect) (innermost : Draft) : List Frame → Draft
  | [] => innermost
  | .array items :: frames =>
    Draft.abandon defect (.array (innermost :: items).reverse (some defect)) frames
  | .object fields key :: frames =>
    Draft.abandon defect (.object ((key, innermost) :: fields).reverse (some defect)) frames

def misplaced : Defect :=
  .both .malformed

def ended : Defect :=
  .both .unfinished

/-- The draft of the value whose containers are partly read, and the tokens behind it.  The
tokens behind a draft that is not whole are of no interest and are left out. -/
def Draft.ofTokens (awaited : Awaited) (frames : List Frame) : List Token → Draft × List Token
  | [] =>
    match awaited with
    | .value | .firstItem | .colon => (Draft.abandon ended (.broken ended) frames, [])
    | .firstKey fields | .key fields =>
      (Draft.abandon ended (.object fields.reverse (some ended)) frames, [])
    | .separator last => (Draft.abandon ended last frames, [])
  | token :: rest =>
    match awaited, token, frames with
    | .firstItem, .closeArray, .array items :: outer =>
      Draft.ofTokens (.separator (.array items.reverse none)) outer rest
    | .value, _, _ | .firstItem, _, _ =>
      match token with
      | .null => Draft.ofTokens (.separator .null) frames rest
      | .bool b => Draft.ofTokens (.separator (.bool b)) frames rest
      | .number n => Draft.ofTokens (.separator (.number n)) frames rest
      | .text content => Draft.ofTokens (.separator (.text content)) frames rest
      | .openArray => Draft.ofTokens .firstItem (.array [] :: frames) rest
      | .openObject => Draft.ofTokens (.firstKey []) frames rest
      | .broken defect | .brokenText defect => (Draft.abandon defect (.broken defect) frames, [])
      | _ => (Draft.abandon misplaced (.broken misplaced) frames, [])
    | .firstKey fields, .closeObject, _ =>
      Draft.ofTokens (.separator (.object fields.reverse none)) frames rest
    | .firstKey fields, .text content, _ | .key fields, .text content, _ =>
      Draft.ofTokens .colon (.object fields content :: frames) rest
    | .firstKey fields, .brokenText defect, _ | .key fields, .brokenText defect, _ =>
      (Draft.abandon defect (.object fields.reverse (some defect)) frames, [])
    | .firstKey fields, _, _ | .key fields, _, _ =>
      (Draft.abandon misplaced (.object fields.reverse (some misplaced)) frames, [])
    | .colon, .colon, _ => Draft.ofTokens .value frames rest
    | .colon, _, _ => (Draft.abandon misplaced (.broken misplaced) frames, [])
    | .separator last, .comma, .array items :: outer =>
      Draft.ofTokens .value (.array (last :: items) :: outer) rest
    | .separator last, .comma, .object fields key :: outer =>
      Draft.ofTokens (.key ((key, last) :: fields)) outer rest
    | .separator last, .closeArray, .array items :: outer =>
      Draft.ofTokens (.separator (.array (last :: items).reverse none)) outer rest
    | .separator last, .closeObject, .object fields key :: outer =>
      Draft.ofTokens (.separator (.object ((key, last) :: fields).reverse none)) outer rest
    | .separator last, _, [] => (last, token :: rest)
    | .separator last, _, _ => (Draft.abandon misplaced last frames, [])

def Draft.ofText (s : String) : Draft × Bool :=
  let (draft, rest) := Draft.ofTokens .value [] (tokens s.toList)
  (draft, !rest.isEmpty)

end FacetQuery.JsonText
