import FacetQuery.Json.Basic
import FacetQuery.Text.Quoted

/-!
# Values of the wrong shape

A `Mismatch` is the reason why a JSON value cannot stand where a certain shape is wanted.
It is a cause and not a text; `Mismatch.message` is the one place where the wording of
all of them is kept.
-/

namespace FacetQuery.Wire

/-- A record of the wire form: its name and its fields in the order of their declaration. -/
structure RecordShape where
  name : String
  fields : List String
deriving DecidableEq

inductive Found where
  | null
  | bool (b : Bool)
  | int (i : Int)
  | float (x : Binary64)
  | text (s : String)
  | sequence
  | map
deriving DecidableEq

inductive Wanted where
  | boolean
  | text
  | sequence
  /-- A whole number below `2 ^ 64`. -/
  | word
  /-- A whole number below `2 ^ 64` that counts things in memory. -/
  | size
  | number
  | record (shape : RecordShape)
deriving DecidableEq

/-- Why a value does not have the wanted shape. -/
inductive Mismatch where
  | wrongKind (found : Found) (wanted : Wanted)
  | negative (found : Int) (wanted : Wanted)
  | missingField (name : String)
  | unknownField (name : String) (shape : RecordShape)
  | repeatedField (name : String)
  /-- An array that ends before the field at the given position. -/
  | tooShort (position : Nat) (shape : RecordShape)
  /-- An array with more items than the record has fields. -/
  | tooLong (length : Nat)
  /-- A literal that is not a scalar. -/
  | notScalar
deriving DecidableEq

def Found.ofJson : Json → Found
  | .null => .null
  | .bool b => .bool b
  | .int i => .int i
  | .float x => .float x
  | .text s => .text s
  | .array _ => .sequence
  | .object _ => .map

def Found.message : Found → String
  | .null => "null"
  | .bool b => "boolean `" ++ (if b then "true" else "false") ++ "`"
  | .int i => "integer `" ++ String.ofList (Text.signedNumeral i) ++ "`"
  | .float x => "floating point `" ++ x.jsonText ++ "`"
  | .text s => "string " ++ Text.quoted s
  | .sequence => "sequence"
  | .map => "map"

def Wanted.message : Wanted → String
  | .boolean => "a boolean"
  | .text => "a string"
  | .sequence => "a sequence"
  | .word => "u64"
  | .size => "usize"
  | .number => "f64"
  | .record shape => "struct " ++ shape.name

def RecordShape.fieldsMessage (shape : RecordShape) : String :=
  match shape.fields.map fun name => "`" ++ name ++ "`" with
  | [] => "there are no fields"
  | [a] => "expected " ++ a
  | [a, b] => "expected " ++ a ++ " or " ++ b
  | names => "expected one of " ++ ", ".intercalate names

def RecordShape.sizeMessage (shape : RecordShape) : String :=
  let count := shape.fields.length
  "struct " ++ shape.name ++ " with " ++ String.ofList (Text.numeral count) ++
    (if count = 1 then " element" else " elements")

def Mismatch.message : Mismatch → String
  | .wrongKind found wanted => "invalid type: " ++ found.message ++ ", expected " ++ wanted.message
  | .negative found wanted =>
    "invalid value: " ++ (Found.int found).message ++ ", expected " ++ wanted.message
  | .missingField name => "missing field `" ++ name ++ "`"
  | .unknownField name shape => "unknown field `" ++ name ++ "`, " ++ shape.fieldsMessage
  | .repeatedField name => "duplicate field `" ++ name ++ "`"
  | .tooShort position shape =>
    "invalid length " ++ String.ofList (Text.numeral position) ++ ", expected " ++ shape.sizeMessage
  | .tooLong length =>
    "invalid length " ++ String.ofList (Text.numeral length) ++
      ", expected fewer elements in array"
  | .notScalar => "data did not match any variant of untagged enum Value"

end FacetQuery.Wire
