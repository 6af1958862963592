import FacetQuery.Value

/-!
# Ranges of values

A range has two ends, each of which may be missing, and each of which belongs to the
range or does not.  The ends are numbers or dates.

`ValueRange.contains` is the meaning of a range: a value lies in it when it is of the
kind of its ends and is comparable with, and on the right side of, each end that there
is.  A range without ends holds numbers.
-/

namespace FacetQuery

/-- A range of numbers or of dates.  Nothing keeps the ends from being of different kinds,
upside down or no numbers at all; what such a range contains follows from the comparisons alone. -/
structure ValueRange where
  lower : Option Value
  upper : Option Value
  includeLower : Bool
  includeUpper : Bool
deriving DecidableEq

namespace ValueRange

/-- Whether an end of the range is a date.  A range without ends counts as one of numbers. -/
def isDateRange (r : ValueRange) : Bool :=
  r.lower.any Value.isDate || r.upper.any Value.isDate

def sameKind (r : ValueRange) (v : Value) : Bool :=
  if r.isDateRange then v.isDate else v.asNumber?.isSome

def aboveLower (r : ValueRange) (v : Value) : Bool :=
  match r.lower with
  | none => true
  | some lower =>
    match v.compare? lower with
    | some .gt => true
    | some .eq => r.includeLower
    | _ => false

def belowUpper (r : ValueRange) (v : Value) : Bool :=
  match r.upper with
  | none => true
  | some upper =>
    match v.compare? upper with
    | some .lt => true
    | some .eq => r.includeUpper
    | _ => false

/-- Whether a value lies in the range.  An end with which a value is not comparable keeps it
out. -/
def contains (r : ValueRange) (v : Value) : Bool :=
  r.sameKind v && r.aboveLower v && r.belowUpper v

end ValueRange
end FacetQuery
