import FacetQuery.Value
import FacetQuery.Word
import FacetQuery.Wire.Mismatch

/-!
# Scalars of the wire form

The readers of the fields of a record, and of the literals of a predicate.  A literal is
a truth value, a number or a text; a whole number beyond the signed 64-bit range is
taken as the nearest double.  Dates are not written as such: they arrive as texts.
-/

namespace FacetQuery.Wire

def wrongKind (j : Json) (wanted : Wanted) : Mismatch :=
  .wrongKind (.ofJson j) wanted

def readBool : Json → Except Mismatch Bool
  | .bool b => .ok b
  | j => .error (wrongKind j .boolean)

def readText : Json → Except Mismatch String
  | .text s => .ok s
  | j => .error (wrongKind j .text)

def readItems : Json → Except Mismatch (List Json)
  | .array items => .ok items
  | j => .error (wrongKind j .sequence)

/-- Reads a whole number below `2 ^ 64`. -/
def readWord : Json → Except Mismatch UInt64
  | .int i =>
    match uint64? i with
    | some w => .ok w
    | none => .error (if i < 0 then .negative i .word else wrongKind (.int i) .word)
  | j => .error (wrongKind j .word)

def readValue : Json → Except Mismatch Value
  | .bool b => .ok (.bool b)
  | .int i =>
    match int64? i with
    | some w => .ok (.int w)
    | none => .ok (.float (Binary64.ofInt i))
  | .float x => .ok (.float x)
  | .text s => .ok (.text s)
  | _ => .error .notScalar

def readValues (j : Json) : Except Mismatch (List Value) := do
  (← readItems j).mapM readValue

/-- The literal that is written for a value; doubles that are not finite have none, and
dates are written as texts. -/
def writeValue : Value → Json
  | .bool b => .bool b
  | .int i => .int i.toInt
  | .float x => .float x
  | .text s => .text s
  | .date d => .text (toString d)

end FacetQuery.Wire
