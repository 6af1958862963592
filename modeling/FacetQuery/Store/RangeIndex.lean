import FacetQuery.Pattern.Range
import FacetQuery.Store.OrderedIndex

/-!
# Range indexes

A range index lists the records of one property by the size of its numbers and by the
time of its dates; values of other kinds do not appear in it.  Numbers are listed in the
total order of doubles, which tells `-0.0` from `0.0` and has a place for NaN.

A range with a date at an end is looked up among the dates and any other range among the
numbers; only a range without ends is looked up among both.  An end of the other kind is
no bound.
-/

namespace FacetQuery

/-- The records of one property, by number and by date.  A property may have values of both
kinds; each value is filed in the map of its kind, and values of no such kind are not filed at
all. -/
structure RangeIndex where
  numbers : OrderedIndex
  dates : OrderedIndex

namespace RangeIndex

def empty : RangeIndex :=
  ⟨.empty, .empty⟩

instance : Inhabited RangeIndex := ⟨empty⟩

/-- The key of a number.  Keys follow the total order of the bit patterns, in which the two
zeros differ and the NaNs have places too; numbers do not compare in this way, and the two
orders part there. -/
def numberKey? (v : Value) : Option Int :=
  v.asNumber?.map Binary64.totalKey

def dateKey? (v : Value) : Option Int :=
  v.asDate?.map fun d => (d.orderKey : Int)

def add (index : RangeIndex) (v : Value) (id : RecordId) : RangeIndex :=
  match numberKey? v, dateKey? v with
  | some key, _ => { index with numbers := index.numbers.insert key id }
  | none, some key => { index with dates := index.dates.insert key id }
  | none, none => index

/-- The window of a range, under a choice of keys.  An end without a key of the chosen kind is
no bound. -/
def window (key? : Value → Option Int) (r : ValueRange) : Window :=
  ⟨.at (r.lower.bind key?) r.includeLower, .at (r.upper.bind key?) r.includeUpper⟩

def isUnbounded (r : ValueRange) : Bool :=
  r.lower.isNone && r.upper.isNone

/-- The window in which a range is looked up among the dates.  A range without ends is looked up
among the dates and among the numbers; any other one among the dates if one of its ends is a
date, and else among the numbers. -/
def dateWindow? (r : ValueRange) : Option Window :=
  if isUnbounded r || r.isDateRange then some (window dateKey? r) else none

def numberWindow? (r : ValueRange) : Option Window :=
  if isUnbounded r || !r.isDateRange then some (window numberKey? r) else none

/-- The records with a value in a range; there is no answer where a walk is refused. -/
def lookup? (index : RangeIndex) (r : ValueRange) : Option IdSet := do
  let dates ← (dateWindow? r).elim (some ∅) index.dates.lookup?
  let numbers ← (numberWindow? r).elim (some ∅) index.numbers.lookup?
  some (dates.union numbers)

theorem isSome_lookup? (index : RangeIndex) (r : ValueRange) : (index.lookup? r).isSome = true := by
  have walk (ordered : OrderedIndex) (w? : Option Window) :
      ∃ ids, w?.elim (some ∅) ordered.lookup? = some ids := by
    cases w? with
    | none => exact ⟨∅, rfl⟩
    | some w => exact Option.isSome_iff_exists.mp (ordered.isSome_lookup? w)
  obtain ⟨dates, hdates⟩ := walk index.dates (dateWindow? r)
  obtain ⟨numbers, hnumbers⟩ := walk index.numbers (numberWindow? r)
  rw [lookup?, hdates, hnumbers]
  rfl

/-- The records with a value in a range. -/
def lookup (index : RangeIndex) (r : ValueRange) : IdSet :=
  (index.lookup? r).get (index.isSome_lookup? r)

end RangeIndex
end FacetQuery
