import FacetQuery.Pattern.Range
import FacetQuery.Text.Blank
import FacetQuery.Word

/-!
# Ranges as texts

A range is written as `[lower,upper]`, with a parenthesis in the place of a bracket whose
end does not belong to the range.  An end may be left out, and blanks may stand around
the brackets and around the ends.  An end is a number, `-?[0-9]*[.]?[0-9]+`, or has the
form of a date, `YYYY-MM-DD`.

Recognising the form and converting the ends are two steps.  A text without the form of
a range is not a range at all (`RangeText.ofText?` is `none`); a text with that form is a
range or an error: an end that looks like a date must be one, and a range cannot begin
with a number and end with a date.
-/

namespace FacetQuery

inductive RangeSide where
  | lower
  | upper
deriving DecidableEq

def RangeSide.name : RangeSide → String
  | lower => "lower"
  | upper => "upper"

inductive RangeError where
  /-- An end that is no number has to be the date of a day that exists. -/
  | invalidBound (side : RangeSide) (bound text : String)
  | mixedBounds (text : String)
deriving DecidableEq

def RangeError.message : RangeError → String
  | invalidBound side bound text =>
    "invalid " ++ side.name ++ " bound `" ++ bound ++ "` in range `" ++ text ++ "`"
  | mixedBounds text => "range `" ++ text ++ "` mixes number and date bounds"

/-- The parts of a text with the form of a range; the text of a missing end is empty. -/
structure RangeText where
  includeLower : Bool
  lower : List Char
  upper : List Char
  includeUpper : Bool
deriving DecidableEq

namespace RangeText

/-! ### The form of a range -/

/-- Whether a text is a number: an optional minus sign, and digits with at most one point
among them, behind which there is at least one digit. -/
def isNumber (cs : List Char) : Bool :=
  let digits := match cs with
    | '-' :: rest => rest
    | _ => cs
  match digits.dropWhile Char.isDigit with
  | [] => !digits.isEmpty
  | '.' :: fraction => !fraction.isEmpty && fraction.all Char.isDigit
  | _ => false

/-- Whether a text may stand in the place of an end: nothing, a number, or the form of a date,
with any digits. -/
def isBound (cs : List Char) : Bool :=
  cs.isEmpty || Date.isShape cs || isNumber cs

def opening? : Char → Option Bool
  | '[' => some true
  | '(' => some false
  | _ => none

def closing? : Char → Option Bool
  | ']' => some true
  | ')' => some false
  | _ => none

/-- The ends between the brackets, without the blanks around them, if there is one comma and
each of them may be one. -/
def ends? (cs : List Char) : Option (List Char × List Char) :=
  let lower := Text.trim (cs.takeWhile (· != ','))
  match cs.dropWhile (· != ',') with
  | ',' :: rest =>
    let upper := Text.trim rest
    if isBound lower && isBound upper then some (lower, upper) else none
  | _ => none

/-- The parts of a text, if it has the form of a range.  The form is all that is asked for here;
that an end is no day of the calendar is found out later, and is an error then. -/
def ofText? (cs : List Char) : Option RangeText :=
  match Text.trim cs with
  | [] => none
  | first :: rest => do
    let includeLower ← opening? first
    let includeUpper ← closing? (← rest.getLast?)
    let (lower, upper) ← ends? rest.dropLast
    some ⟨includeLower, lower, upper, includeUpper⟩

/-! ### The ends as values -/

/-- The value of a number: a whole number of the signed 64-bit range when it is written
without a point, and otherwise the nearest double. -/
def numberValue (cs : List Char) : Value :=
  let (negative, digits) := match cs with
    | '-' :: rest => (true, rest)
    | _ => (false, cs)
  let whole := digits.takeWhile Char.isDigit
  let fraction := (digits.dropWhile Char.isDigit).drop 1
  let coefficient := Text.numeralValue (whole ++ fraction)
  let signed : Int := if negative then -(coefficient : Int) else coefficient
  let double := Binary64.ofDecimal negative coefficient (-(fraction.length : Int))
  if cs.contains '.' then .float double else ((int64? signed).map .int).getD (.float double)

/-- The value of an end, which is missing when its text is empty. -/
def boundValue (text : String) (side : RangeSide) (cs : List Char) :
    Except RangeError (Option Value) :=
  if cs.isEmpty then .ok none
  else if isNumber cs then .ok (some (numberValue cs))
  else
    match Date.read? cs with
    | some d => .ok (some (.date d))
    | none => .error (.invalidBound side (String.ofList cs) text)

def areMixed : Option Value → Option Value → Bool
  | some lower, some upper => lower.isDate != upper.isDate
  | _, _ => false

def toRange (text : String) (parts : RangeText) : Except RangeError ValueRange := do
  let lower ← boundValue text .lower parts.lower
  let upper ← boundValue text .upper parts.upper
  if areMixed lower upper then throw (.mixedBounds text)
  else pure ⟨lower, upper, parts.includeLower, parts.includeUpper⟩

end RangeText
end FacetQuery
