import FacetQuery.Proofs.Binary64.Order
import FacetQuery.Proofs.Date
import FacetQuery.Proofs.Pattern.Ends
import FacetQuery.Proofs.Store.Windows

/-!
# Every range can be looked up in every index

A walk through an ordered index can be refused: there is nowhere to start in a window that begins
above its end, or that lies strictly between two equal bounds (`Window.IsRefused`).  A range can be
turned into such a window.  Its ends may be upside down or equal, and nothing in the type of a range
keeps them from being of any kind, a NaN or a text for instance.  `RangeIndex.lookup_exact` says
that a lookup walks through no window that would be refused, and that the windows which it leaves
out for this reason contain no key, so that every range is answered as its ends say.

### What is load-bearing

* A lookup is partial and fails where a walk is refused (`RangeIndex.lookup?`), so that it has an
  answer for every range says that it meets no refused walk.
* The ends are compared with the keys in the order of the index, in which a NaN has its place and
  the two zeros are apart (`Binary64.TotallyBefore`).  For this reason nothing is asked of the ends
  here, unlike where a lookup is compared with what a range contains.
-/

namespace FacetQuery

/-! ### Refused walks -/

namespace Window

variable {w : Window}

/-- The window starts above its end, or lies strictly between two equal bounds. -/
def IsRefused (w : Window) : Prop :=
  (∃ b c, w.lower.key? = some b ∧ w.upper.key? = some c ∧ c < b) ∨
    ∃ b, w.lower = .excluded b ∧ w.upper = .excluded b

theorem isProper_iff_not_isRefused : w.isProper = true ↔ ¬ w.IsRefused := by
  obtain ⟨lower, upper⟩ := w
  unfold IsRefused isProper
  cases lower <;> cases upper <;> simp [Bound.key?]
  -- Equal keys make a difference between two excluded bounds only.
  case excluded.excluded b c => omega

end Window

namespace OrderedIndex

variable {index : OrderedIndex} {w : Window}

/-- **When a walk is refused**: the index does not matter. -/
theorem slice?_eq_none_iff : index.slice? w = none ↔ w.IsRefused := by
  rw [slice?, ite_eq_right_iff, Window.isProper_iff_not_isRefused]
  simp only [reduceCtorEq, imp_false, Classical.not_not]

end OrderedIndex

/-! ### Windows of ranges -/

namespace Bound

variable {j k : Int} {key : Option Int} {isIncluded : Bool}

theorem key?_at : (Bound.at key isIncluded).key? = key := by
  cases key <;> cases isIncluded <;> rfl

theorem isIncluded_at : (Bound.at (some j) isIncluded).isIncluded = isIncluded := by
  cases isIncluded <;> rfl

/-- What a lower bound admits that is at a key, if there is one. -/
theorem admitsAbove_at_iff : (Bound.at key isIncluded).admitsAbove k = true ↔
    ∀ j, key = some j → j < k ∨ (j = k ∧ isIncluded = true) := by
  cases key with
  | none => exact iff_of_true rfl fun j h => absurd h (Option.some_ne_none j).symm
  | some j =>
      rw [admitsAbove_iff key?_at, isIncluded_at]
      simp only [Option.some_inj, forall_eq']

/-- What an upper bound admits that is at a key, if there is one. -/
theorem admitsBelow_at_iff : (Bound.at key isIncluded).admitsBelow k = true ↔
    ∀ j, key = some j → k < j ∨ (k = j ∧ isIncluded = true) := by
  cases key with
  | none => exact iff_of_true rfl fun j h => absurd h (Option.some_ne_none j).symm
  | some j =>
      rw [admitsBelow_iff key?_at, isIncluded_at]
      simp only [Option.some_inj, forall_eq']

end Bound

namespace RangeIndex

variable {index : RangeIndex} {r : ValueRange} {w : Window} {k : Int} {id : RecordId}

/-- A key is on the right side of both ends of a range, under a choice of keys for the ends.  An
end that is missing or has no key is no condition. -/
structure MeetsEnds (key? : Value → Option Int) (r : ValueRange) (k : Int) : Prop where
  lower : ∀ j, r.lower.bind key? = some j → j < k ∨ (j = k ∧ r.includeLower = true)
  upper : ∀ j, r.upper.bind key? = some j → k < j ∨ (k = j ∧ r.includeUpper = true)

/-- **The window of a range contains the keys on the right side of both ends.** -/
theorem contains_window_iff {key? : Value → Option Int} :
    (window key? r).contains k = true ↔ MeetsEnds key? r k := by
  rw [Window.contains, Bool.and_eq_true, window, Bound.admitsAbove_at_iff,
    Bound.admitsBelow_at_iff]
  exact ⟨fun h => ⟨h.1, h.2⟩, fun h => ⟨h.lower, h.upper⟩⟩

theorem isUnbounded_iff : isUnbounded r = true ↔ r.ends = [] := by
  rw [isUnbounded, Bool.and_eq_true, Option.isNone_iff_eq_none, Option.isNone_iff_eq_none,
    ValueRange.ends_eq_nil_iff]

/-- A range is looked up among the dates if it has no ends, or if one of them is a date. -/
theorem dateWindow?_eq_some_iff : dateWindow? r = some w ↔
    (r.ends = [] ∨ ∃ e ∈ r.ends, e.isDate = true) ∧ window dateKey? r = w := by
  rw [dateWindow?, Option.ite_none_right_eq_some, Option.some_inj, Bool.or_eq_true,
    isUnbounded_iff, ValueRange.isDateRange_iff]

/-- A range is looked up among the numbers if none of its ends is a date. -/
theorem numberWindow?_eq_some_iff : numberWindow? r = some w ↔
    (∀ e ∈ r.ends, e.isDate = false) ∧ window numberKey? r = w := by
  rw [numberWindow?, Option.ite_none_right_eq_some, Option.some_inj, Bool.or_eq_true,
    isUnbounded_iff, Bool.not_eq_true', ← Bool.not_eq_true, ValueRange.isDateRange_iff]
  simp only [not_exists, not_and, Bool.not_eq_true]
  refine and_congr_left fun _ => or_iff_right_of_imp fun hends e he => ?_
  rw [hends] at he
  exact absurd he List.not_mem_nil

/-! ### Lookups -/

/-- **Every range is looked up without a refused walk, and answered as its ends say.**

A walk is refused in a window that starts above its end or lies strictly between two equal bounds,
whatever is listed.  A lookup walks through no such window, so it has an answer.  It finds the
records that are listed under a date, or under a number, on the right side of both ends.  Dates are
asked about if some end is a date, or if there are no ends, and numbers if no end is a date; an end
of the other kind is no condition.  The key of a number is its place in the total order of doubles,
and the key of a date its place in the calendar. -/
theorem lookup_exact (index : RangeIndex) (r : ValueRange) :
    (∀ (ordered : OrderedIndex) (w : Window), ordered.slice? w = none ↔ w.IsRefused) ∧
      (∀ w, dateWindow? r = some w ∨ numberWindow? r = some w → w.isVacuous = false →
        ¬ w.IsRefused) ∧
      (∃ ids, index.lookup? r = some ids ∧ index.lookup r = ids ∧
        ∀ id, id ∈ ids ↔
          ((r.ends = [] ∨ ∃ e ∈ r.ends, e.isDate = true) ∧ ∃ key, index.dates.Has key id ∧
            MeetsEnds (fun e => e.asDate?.map fun d => (d.orderKey : Int)) r key) ∨
          ((∀ e ∈ r.ends, e.isDate = false) ∧ ∃ key, index.numbers.Has key id ∧
            MeetsEnds (fun e => e.asNumber?.map Binary64.totalKey) r key)) ∧
      (∀ x y : Binary64, (x.totalKey < y.totalKey ↔ x.TotallyBefore y) ∧
        (x.totalKey = y.totalKey ↔ x = y)) ∧
      ∀ d e : Date, (d.orderKey < e.orderKey ↔ d.Earlier e) ∧ (d.orderKey = e.orderKey ↔ d = e) := by
  refine ⟨fun ordered w => OrderedIndex.slice?_eq_none_iff, fun w _ hvacuous => ?_,
    ⟨index.lookup r, index.lookup?_eq_some r, rfl, fun id => ?_⟩,
    fun x y => ⟨Binary64.totalKey_lt_iff, Binary64.totalKey_inj⟩,
    fun d e => ⟨Date.orderKey_lt_iff, Date.orderKey_inj⟩⟩
  · rw [← Window.isProper_iff_not_isRefused]
    exact Window.isProper_of_not_isVacuous (Bool.not_eq_true _ ▸ hvacuous)
  · rw [mem_lookup]
    simp only [dateWindow?_eq_some_iff, numberWindow?_eq_some_iff, and_assoc, exists_and_left,
      exists_eq_left', contains_window_iff, and_comm (a := MeetsEnds _ _ _)]
    rfl

end RangeIndex
end FacetQuery
