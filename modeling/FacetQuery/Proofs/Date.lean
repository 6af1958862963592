import FacetQuery.Date

/-!
# The order of dates

Dates are compared by the number `YYYYMMDD`.  The parts of a date that exists have few digits, so
this is the order of the calendar (`Date.orderKey_lt_iff`), and no two dates have the same number
(`Date.orderKey_inj`).
-/

namespace FacetQuery
namespace Date

variable {d e : Date}

theorem month_le (d : Date) : d.month ≤ 12 := by
  have := Nat.lt_of_lt_of_le d.day_pos d.day_le
  rw [daysInMonth.eq_def] at this
  split at this <;> omega

theorem day_le_of_month (d : Date) : d.day ≤ 31 := by
  refine Nat.le_trans d.day_le ?_
  rw [daysInMonth.eq_def]
  grind

/-- **The order of the calendar**: by year, within a year by month, and within a month by day. -/
def Earlier (d e : Date) : Prop :=
  d.year < e.year ∨ d.year = e.year ∧ (d.month < e.month ∨ d.month = e.month ∧ d.day < e.day)

theorem orderKey_lt_iff : d.orderKey < e.orderKey ↔ d.Earlier e := by
  have := d.month_le
  have := e.month_le
  have := d.day_le_of_month
  have := e.day_le_of_month
  simp only [orderKey, Earlier]
  omega

/-- No two dates have the same number. -/
theorem orderKey_inj : d.orderKey = e.orderKey ↔ d = e := by
  refine ⟨fun h => ?_, congrArg orderKey⟩
  have := d.month_le
  have := e.month_le
  have := d.day_le_of_month
  have := e.day_le_of_month
  simp only [orderKey] at h
  cases d
  cases e
  rw [mk.injEq]
  simp only at *
  omega

end Date
end FacetQuery
