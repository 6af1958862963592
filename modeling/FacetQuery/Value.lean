import FacetQuery.Date
import FacetQuery.Decimal.Notation
import FacetQuery.Text.Quoted

/-!
# Values

A `Value` is what a record holds under a property and what a predicate asks for: a
truth value, a whole number, a double, a text or a date.

Equality is equality of the kind and of the content, and of the bit pattern for
doubles, so `1`, `1.0` and `"1"` are three different values and a value can be a key.
`compare?` is coarser and partial: numbers of both kinds are compared by size, dates by
time, and nothing else is comparable.
-/

namespace FacetQuery

/-- A scalar: the content of a record's property, or a literal of a predicate.  Doubles are
equal when their bit patterns are, and values of different kinds are never equal; that `7` and
`7.0` are the same number is a matter of lookups and comparisons. -/
inductive Value where
  | bool (b : Bool)
  | int (i : Int64)
  | float (x : Binary64)
  | text (s : String)
  | date (d : Date)
deriving DecidableEq, Hashable

namespace Value

def asText? : Value → Option String
  | text s => some s
  | _ => none

/-- The double that a number is compared as; a whole number is rounded to the nearest. -/
def asNumber? : Value → Option Binary64
  | int i => some (Binary64.ofInt i.toInt)
  | float x => some x
  | _ => none

def asDate? : Value → Option Date
  | date d => some d
  | _ => none

def isDate (v : Value) : Bool :=
  v.asDate?.isSome

def kind : Value → String
  | bool _ => "bool"
  | int _ => "int"
  | float _ => "float"
  | text _ => "string"
  | date _ => "date"

/-- The order of two numbers or of two dates.  Numbers are compared as doubles, also two whole
numbers. -/
def compare? : Value → Value → Option Ordering
  | date d, date e => some (compare d e)
  | v, w => do (← v.asNumber?).compare? (← w.asNumber?)

def boolText (b : Bool) : String :=
  if b then "true" else "false"

def display : Value → String
  | bool b => boolText b
  | int i => String.ofList (Text.signedNumeral i.toInt)
  | float x => x.display
  | text s => Text.quoted s
  | date d => toString d

instance : ToString Value := ⟨display⟩

end Value
end FacetQuery
