import FacetQuery.Text.Numeral

/-!
# Calendar dates

A `Date` is a day of the proleptic Gregorian calendar in one of the years 0000 to 9999,
and its only text is `YYYY-MM-DD`.  That it names a day that exists is part of the type.
-/

namespace FacetQuery

def isLeapYear (year : Nat) : Bool :=
  year % 4 == 0 && (year % 100 != 0 || year % 400 == 0)

/-- The number of days of a month; there are none in months that do not exist. -/
def daysInMonth (year month : Nat) : Nat :=
  match month with
  | 1 | 3 | 5 | 7 | 8 | 10 | 12 => 31
  | 4 | 6 | 9 | 11 => 30
  | 2 => if isLeapYear year then 29 else 28
  | _ => 0

/-- A calendar date of the years 0000 to 9999.  A month needs no bound of its own: there are no
days in months that do not exist. -/
structure Date where
  year : Nat
  month : Nat
  day : Nat
  year_lt : year < 10000
  day_pos : 0 < day
  day_le : day ≤ daysInMonth year month
deriving DecidableEq

namespace Date

def ofParts? (year month day : Nat) : Option Date :=
  if h : year < 10000 ∧ 0 < day ∧ day ≤ daysInMonth year month then
    some ⟨year, month, day, h.1, h.2.1, h.2.2⟩
  else none

/-- The number `YYYYMMDD`, by which dates are ordered and filed in an index. -/
def orderKey (d : Date) : Nat :=
  (d.year * 100 + d.month) * 100 + d.day

def compare (d e : Date) : Ordering :=
  Ord.compare d.orderKey e.orderKey

instance : Ord Date := ⟨compare⟩

instance : Hashable Date := ⟨fun d => hash d.orderKey⟩

def toChars (d : Date) : List Char :=
  Text.paddedNumeral 4 d.year ++ '-' :: Text.paddedNumeral 2 d.month ++
    '-' :: Text.paddedNumeral 2 d.day

instance : ToString Date := ⟨fun d => String.ofList d.toChars⟩

def isShape : List Char → Bool
  | [y₁, y₂, y₃, y₄, h₁, m₁, m₂, h₂, d₁, d₂] =>
    [y₁, y₂, y₃, y₄, m₁, m₂, d₁, d₂].all Char.isDigit && h₁ == '-' && h₂ == '-'
  | _ => false

/-- Reads a text of the form of a date: four digits, two digits and two digits, with hyphens
between them.  There is no date if there is no such day. -/
def read? (cs : List Char) : Option Date :=
  if isShape cs then
    ofParts? (Text.numeralValue (cs.take 4)) (Text.numeralValue ((cs.drop 5).take 2))
      (Text.numeralValue (cs.drop 8))
  else none

end Date
end FacetQuery
