import FacetQuery.Decimal.Shortest
import FacetQuery.Text.Numeral

/-!
# Writing doubles

A finite double is written by its shortest decimal, either positionally (`0.001`,
`1200`) or with a power of ten (`1e-7`, `1.5e+300`).  A `Notation64` is a choice of
the conventions of one output format; the two formats in use are

* `Notation64.display`: always positional, whole numbers without a point;
* `Notation64.json`: positional from `10 ^ -5` up to `10 ^ 16`, whole numbers with `.0`.
-/

namespace FacetQuery

/-- The conventions of an output format for doubles: the choice between two shortest decimals
that are equally near, whether a number is written positionally, by the power of ten of its
first digit, and what follows the digits of a whole number then. -/
structure Notation64 where
  tie : Tie
  positional : Int → Bool
  wholeMark : List Char

namespace Decimal

def leadingExponent (d : Decimal) : Int :=
  d.exponent + (Text.numeral d.coefficient).length - 1

def positional (wholeMark : List Char) (d : Decimal) : List Char :=
  let digits := Text.numeral d.coefficient
  if 0 ≤ d.exponent then
    digits ++ List.replicate d.exponent.toNat '0' ++ wholeMark
  else if 0 ≤ d.leadingExponent then
    let wholeDigits := (d.leadingExponent + 1).toNat
    digits.take wholeDigits ++ '.' :: digits.drop wholeDigits
  else
    '0' :: '.' :: (List.replicate (-d.leadingExponent - 1).toNat '0' ++ digits)

/-- Notation with a power of ten, whose sign is always written. -/
def scientific (d : Decimal) : List Char :=
  let exponent := d.leadingExponent
  let sign := if exponent < 0 then '-' else '+'
  let power := 'e' :: sign :: Text.numeral exponent.natAbs
  match Text.numeral d.coefficient with
  | [] => power
  | [digit] => digit :: power
  | digit :: rest => digit :: '.' :: (rest ++ power)

end Decimal

namespace Notation64

def display : Notation64 :=
  { tie := .up, positional := fun _ => true, wholeMark := [] }

def json : Notation64 :=
  { tie := .even, positional := fun exponent => -5 ≤ exponent && exponent < 16,
    wholeMark := ['.', '0'] }

def finiteText (conventions : Notation64) (x : Binary64) : List Char :=
  let d := Decimal.shortest conventions.tie x.magnitude
  let body :=
    if conventions.positional d.leadingExponent then d.positional conventions.wholeMark
    else d.scientific
  if x.isNegative then '-' :: body else body

end Notation64

namespace Binary64

/-- A double as it is shown to people; the only text of a NaN is `NaN`. -/
def display (x : Binary64) : String :=
  if x.isNaN then "NaN"
  else if x.isFinite then String.ofList (Notation64.display.finiteText x)
  else if x.isNegative then "-inf"
  else "inf"

def jsonText (x : Binary64) : String :=
  String.ofList (Notation64.json.finiteText x)

end Binary64
end FacetQuery
