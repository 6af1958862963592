import FacetQuery.Proofs.Store.Contributions
import FacetQuery.Proofs.Store.Walks

/-!
# What a range index finds of what lies in a range

A value lies in a range when it compares rightly with the ends (`ValueRange.contains`).  An index
asks something else: it files numbers and dates under integer keys and walks through the keys
between two bounds.  The two questions do not always have the same answer.  `RangeIndex.finds_iff`
says for every value where they differ, and `Store.lookup_range_finds_contained` what follows for a
store that is built up in any way.

There are three differences, and no others:

* A range without ends is looked up among the numbers and among the dates, although it contains
  numbers only.
* An index files a NaN outside all numbers, where nothing is compared with it.  So a range with one
  end finds the NaNs that are filed on its open side.
* An index files the two zeros at different places, where they compare as equal.  So a zero is
  missed at an included end, or found at an excluded one, if the end is the other zero.

### What is load-bearing

The ends are dates, or they are numbers and not NaNs (`ValueRange.Uniform`): an end of the other
kind would be no bound to an index, and exclude everything from the range.  What an index makes of
a number is then settled at each end apart (`Binary64.totalKey_above_iff`), and only a zero between
two ends has to be looked at from both of them.
-/

namespace FacetQuery

variable {r : ValueRange} {v e : Value} {j k : Int} {x y : Binary64}

/-! ### Comparing with the ends -/

namespace ValueRange

theorem aboveLower_of_none (h : r.lower = none) : r.aboveLower v = true := by
  rw [aboveLower, h]

theorem belowUpper_of_none (h : r.upper = none) : r.belowUpper v = true := by
  rw [belowUpper, h]

/-- A value that compares with the lower end as a key does is on its right side when the key is. -/
theorem aboveLower_iff (h : r.lower = some e) (compared : v.compare? e = some (compare k j)) :
    r.aboveLower v = true ↔ j < k ∨ j = k ∧ r.includeLower = true := by
  rw [aboveLower, h]
  dsimp only
  rw [compared]
  rcases Int.lt_trichotomy k j with hlt | rfl | hgt
  · rw [Int.compare_eq_lt.mpr hlt]
    refine iff_of_false Bool.false_ne_true ?_
    omega
  · rw [Int.compare_eq_eq.mpr rfl, or_iff_right (Int.lt_irrefl k), and_iff_right rfl]
  · rw [Int.compare_eq_gt.mpr hgt]
    exact iff_of_true rfl (Or.inl hgt)

/-- A value that compares with the upper end as a key does is on its right side when the key is. -/
theorem belowUpper_iff (h : r.upper = some e) (compared : v.compare? e = some (compare k j)) :
    r.belowUpper v = true ↔ k < j ∨ k = j ∧ r.includeUpper = true := by
  rw [belowUpper, h]
  dsimp only
  rw [compared]
  rcases Int.lt_trichotomy k j with hlt | rfl | hgt
  · rw [Int.compare_eq_lt.mpr hlt]
    exact iff_of_true rfl (Or.inl hlt)
  · rw [Int.compare_eq_eq.mpr rfl, or_iff_right (Int.lt_irrefl k), and_iff_right rfl]
  · rw [Int.compare_eq_gt.mpr hgt]
    refine iff_of_false Bool.false_ne_true ?_
    omega

end ValueRange

theorem Value.compare?_date (d e : Date) :
    (Value.date d).compare? (.date e) = some (compare (d.orderKey : Int) e.orderKey) := by
  have same : compare d.orderKey e.orderKey = compare (d.orderKey : Int) e.orderKey := by
    simp only [compare, compareOfLessAndEq, Int.ofNat_lt, Int.ofNat_inj]
  exact congrArg some same

/-- Numbers are compared as the doubles that they are nearest to. -/
theorem Value.compare?_of_asNumber? (hv : v.asNumber? = some x) (he : e.asNumber? = some y) :
    v.compare? e = x.compare? y := by
  -- Two dates would be compared otherwise, but a date is no number.
  cases v with
  | int i => cases e <;> simp_all [compare?, asNumber?]
  | float z => cases e <;> simp_all [compare?, asNumber?]
  | bool b => cases hv
  | text s => cases hv
  | date d => cases hv

namespace ValueRange

/-- A NaN is on no side of a lower end. -/
theorem not_aboveLower_of_isNaN (h : r.lower = some e) (hv : v.asNumber? = some x)
    (he : e.asNumber? = some y) (nan : x.isNaN = true) : ¬ r.aboveLower v = true := by
  rw [aboveLower, h]
  dsimp only
  rw [Value.compare?_of_asNumber? hv he, Binary64.compare?, nan, Bool.true_or, if_pos rfl]
  exact Bool.false_ne_true

/-- A NaN is on no side of an upper end. -/
theorem not_belowUpper_of_isNaN (h : r.upper = some e) (hv : v.asNumber? = some x)
    (he : e.asNumber? = some y) (nan : x.isNaN = true) : ¬ r.belowUpper v = true := by
  rw [belowUpper, h]
  dsimp only
  rw [Value.compare?_of_asNumber? hv he, Binary64.compare?, nan, Bool.true_or, if_pos rfl]
  exact Bool.false_ne_true

/-- A number is on the right side of a lower end that is a number unless it is a NaN. -/
theorem aboveLower_number_iff (h : r.lower = some e) (hv : v.asNumber? = some x)
    (he : e.asNumber? = some y) (number : y.isNaN = false) :
    r.aboveLower v = true ↔ x.isNaN = false ∧
      (y.orderKey < x.orderKey ∨ y.orderKey = x.orderKey ∧ r.includeLower = true) := by
  cases nan : x.isNaN with
  | true =>
      refine iff_of_false (not_aboveLower_of_isNaN h hv he nan) ?_
      exact fun hno => Bool.noConfusion hno.1
  | false =>
      have compared := Value.compare?_of_asNumber? hv he
      rw [Binary64.compare?, nan, number, Bool.or_false, if_neg Bool.false_ne_true] at compared
      rw [aboveLower_iff h compared, and_iff_right rfl]

/-- A number is on the right side of an upper end that is a number unless it is a NaN. -/
theorem belowUpper_number_iff (h : r.upper = some e) (hv : v.asNumber? = some x)
    (he : e.asNumber? = some y) (number : y.isNaN = false) :
    r.belowUpper v = true ↔ x.isNaN = false ∧
      (x.orderKey < y.orderKey ∨ x.orderKey = y.orderKey ∧ r.includeUpper = true) := by
  cases nan : x.isNaN with
  | true =>
      refine iff_of_false (not_belowUpper_of_isNaN h hv he nan) ?_
      exact fun hno => Bool.noConfusion hno.1
  | false =>
      have compared := Value.compare?_of_asNumber? hv he
      rw [Binary64.compare?, nan, number, Bool.or_false, if_neg Bool.false_ne_true] at compared
      rw [belowUpper_iff h compared, and_iff_right rfl]

/-- At the other zero as a lower end it is the end that decides. -/
theorem aboveLower_zero_iff (h : r.lower = some e) (hv : v.asNumber? = some x)
    (he : e.asNumber? = some y) (hx : x = .positiveZero) (hy : y = .negativeZero) :
    r.aboveLower v = true ↔ r.includeLower = true := by
  subst hx hy
  rw [aboveLower_number_iff h hv he (by decide), and_iff_right (by decide),
    or_iff_right (by decide), and_iff_right (by decide)]

/-- At the other zero as an upper end it is the end that decides. -/
theorem belowUpper_zero_iff (h : r.upper = some e) (hv : v.asNumber? = some x)
    (he : e.asNumber? = some y) (hx : x = .negativeZero) (hy : y = .positiveZero) :
    r.belowUpper v = true ↔ r.includeUpper = true := by
  subst hx hy
  rw [belowUpper_number_iff h hv he (by decide), and_iff_right (by decide),
    or_iff_right (by decide), and_iff_right (by decide)]

/-! ### Where an index differs from a range -/

/-- **What an index misses in a range**: a zero at an end that is the zero of the other sign, if it
is filed on the wrong side of it. -/
def Misses (r : ValueRange) (v : Value) : Prop :=
  (v.asNumber? = some .negativeZero ∧ r.lower.bind Value.asNumber? = some .positiveZero) ∨
    (v.asNumber? = some .positiveZero ∧ r.upper.bind Value.asNumber? = some .negativeZero)

/-- **What an index finds beside a range.** -/
inductive Adds (r : ValueRange) (v : Value) : Prop where
  /-- A date, if there are no ends. -/
  | date (unbounded : r.ends = []) (date : v.isDate = true)
  /-- A NaN without a sign, above a number as the only end. -/
  | nanAbove {x : Binary64} (number : v.asNumber? = some x) (nan : x.isNaN = true)
      (sign : x.isNegative = false) (lower : r.lower.bind Value.asNumber? ≠ none)
      (upper : r.upper = none)
  /-- A NaN with a sign, below a number as the only end. -/
  | nanBelow {x : Binary64} (number : v.asNumber? = some x) (nan : x.isNaN = true)
      (sign : x.isNegative = true) (lower : r.lower = none)
      (upper : r.upper.bind Value.asNumber? ≠ none)
  /-- The zero without a sign, above the other one as an end that is left out. -/
  | zeroAbove (zero : v.asNumber? = some .positiveZero)
      (lower : r.lower.bind Value.asNumber? = some .negativeZero)
      (excluded : r.includeLower = false) (below : r.belowUpper v = true)
      (upper : r.upper.bind Value.asNumber? ≠ some .negativeZero)
  /-- The zero with a sign, below the other one as an end that is left out. -/
  | zeroBelow (zero : v.asNumber? = some .negativeZero)
      (upper : r.upper.bind Value.asNumber? = some .positiveZero)
      (excluded : r.includeUpper = false) (above : r.aboveLower v = true)
      (lower : r.lower.bind Value.asNumber? ≠ some .positiveZero)

instance (r : ValueRange) (v : Value) : Decidable (r.Misses v) :=
  inferInstanceAs (Decidable (_ ∨ _))

theorem adds_iff :
    r.Adds v ↔
      (r.ends = [] ∧ v.isDate = true) ∨
      (v.asNumber?.any (fun x => x.isNaN && !x.isNegative) = true ∧
        r.lower.bind Value.asNumber? ≠ none ∧ r.upper = none) ∨
      (v.asNumber?.any (fun x => x.isNaN && x.isNegative) = true ∧
        r.lower = none ∧ r.upper.bind Value.asNumber? ≠ none) ∨
      (v.asNumber? = some .positiveZero ∧ r.lower.bind Value.asNumber? = some .negativeZero ∧
        r.includeLower = false ∧ r.belowUpper v = true ∧
        r.upper.bind Value.asNumber? ≠ some .negativeZero) ∨
      (v.asNumber? = some .negativeZero ∧ r.upper.bind Value.asNumber? = some .positiveZero ∧
        r.includeUpper = false ∧ r.aboveLower v = true ∧
        r.lower.bind Value.asNumber? ≠ some .positiveZero) := by
  simp only [Option.any_eq_true, Bool.and_eq_true, Bool.not_eq_true']
  constructor
  · rintro (⟨unbounded, date⟩ | ⟨number, nan, sign, lower, upper⟩ |
      ⟨number, nan, sign, lower, upper⟩ | ⟨zero, lower, excluded, below, upper⟩ |
      ⟨zero, upper, excluded, above, lower⟩)
    · exact Or.inl ⟨unbounded, date⟩
    · exact Or.inr (Or.inl ⟨⟨_, number, nan, sign⟩, lower, upper⟩)
    · exact Or.inr (Or.inr (Or.inl ⟨⟨_, number, nan, sign⟩, lower, upper⟩))
    · exact Or.inr (Or.inr (Or.inr (Or.inl ⟨zero, lower, excluded, below, upper⟩)))
    · exact Or.inr (Or.inr (Or.inr (Or.inr ⟨zero, upper, excluded, above, lower⟩)))
  · rintro (⟨unbounded, date⟩ | ⟨⟨x, number, nan, sign⟩, lower, upper⟩ |
      ⟨⟨x, number, nan, sign⟩, lower, upper⟩ | ⟨zero, lower, excluded, below, upper⟩ |
      ⟨zero, upper, excluded, above, lower⟩)
    · exact .date unbounded date
    · exact .nanAbove number nan sign lower upper
    · exact .nanBelow number nan sign lower upper
    · exact .zeroAbove zero lower excluded below upper
    · exact .zeroBelow zero upper excluded above lower

instance (r : ValueRange) (v : Value) : Decidable (r.Adds v) :=
  decidable_of_iff' _ adds_iff

/-- Where no end is a number nothing is missed. -/
theorem not_misses_of_no_numbers (lower : r.lower.bind Value.asNumber? = none)
    (upper : r.upper.bind Value.asNumber? = none) : ¬ r.Misses v := by
  rintro (⟨-, number⟩ | ⟨-, number⟩)
  · rw [lower] at number
    cases number
  · rw [upper] at number
    cases number

/-- Where no end is a number only dates are found beside the range, and only if there are no
ends. -/
theorem adds_iff_of_no_numbers (lower : r.lower.bind Value.asNumber? = none)
    (upper : r.upper.bind Value.asNumber? = none) :
    r.Adds v ↔ r.ends = [] ∧ v.isDate = true := by
  constructor
  · rintro (⟨unbounded, date⟩ | ⟨-, -, -, number, -⟩ | ⟨-, -, -, -, number⟩ | ⟨-, number, -, -, -⟩ |
      ⟨-, number, -, -, -⟩)
    · exact ⟨unbounded, date⟩
    · exact absurd lower number
    · exact absurd upper number
    · rw [lower] at number
      cases number
    · rw [upper] at number
      cases number
  · exact fun h => .date h.1 h.2

/-- **What is found beside a range is not in it.** -/
theorem Adds.not_contains (h : r.Adds v) : r.contains v = false := by
  rw [← Bool.not_eq_true, contains, Bool.and_eq_true, Bool.and_eq_true]
  rintro ⟨⟨kind, above⟩, below⟩
  cases h with
  | date unbounded date =>
      obtain ⟨lower, upper⟩ := ends_eq_nil_iff.mp unbounded
      rw [sameKind, isDateRange, lower, upper] at kind
      cases v with
      | date d => cases kind
      | int i => cases date
      | float z => cases date
      | bool b => cases date
      | text s => cases date
  | nanAbove number nan sign lower upper =>
      obtain ⟨y, bound⟩ := Option.ne_none_iff_exists'.mp lower
      obtain ⟨e, he, hy⟩ := Option.bind_eq_some_iff.mp bound
      exact not_aboveLower_of_isNaN he number hy nan above
  | nanBelow number nan sign lower upper =>
      obtain ⟨y, bound⟩ := Option.ne_none_iff_exists'.mp upper
      obtain ⟨e, he, hy⟩ := Option.bind_eq_some_iff.mp bound
      exact not_belowUpper_of_isNaN he number hy nan below
  | zeroAbove zero lower excluded _ _ =>
      obtain ⟨e, he, hy⟩ := Option.bind_eq_some_iff.mp lower
      rw [aboveLower_zero_iff he zero hy rfl rfl, excluded] at above
      cases above
  | zeroBelow zero upper excluded _ _ =>
      obtain ⟨e, he, hy⟩ := Option.bind_eq_some_iff.mp upper
      rw [belowUpper_zero_iff he zero hy rfl rfl, excluded] at below
      cases below

end ValueRange

/-! ### What an index finds -/

namespace RangeIndex

/-- Which numbers are filed on the right side of a lower end. -/
theorem meetsLower_iff (h : r.lower = some e) (hv : v.asNumber? = some x)
    (he : e.asNumber? = some y) (number : y.isNaN = false) :
    (∀ j, r.lower.bind numberKey? = some j →
      j < x.totalKey ∨ (j = x.totalKey ∧ r.includeLower = true)) ↔
    (x.isNaN = true ∧ x.isNegative = false) ∨ (x = .positiveZero ∧ y = .negativeZero) ∨
      (r.aboveLower v = true ∧ ¬ (x = .negativeZero ∧ y = .positiveZero)) := by
  rw [ValueRange.aboveLower_number_iff h hv he number, ← Binary64.totalKey_above_iff number, h,
    Option.bind_some, numberKey?, he]
  simp only [Option.map_some, Option.some.injEq, forall_eq']

/-- Which numbers are filed on the right side of an upper end. -/
theorem meetsUpper_iff (h : r.upper = some e) (hv : v.asNumber? = some x)
    (he : e.asNumber? = some y) (number : y.isNaN = false) :
    (∀ j, r.upper.bind numberKey? = some j →
      x.totalKey < j ∨ (x.totalKey = j ∧ r.includeUpper = true)) ↔
    (x.isNaN = true ∧ x.isNegative = true) ∨ (x = .negativeZero ∧ y = .positiveZero) ∨
      (r.belowUpper v = true ∧ ¬ (x = .positiveZero ∧ y = .negativeZero)) := by
  rw [ValueRange.belowUpper_number_iff h hv he number, ← Binary64.totalKey_below_iff number, h,
    Option.bind_some, numberKey?, he]
  simp only [Option.map_some, Option.some.injEq, forall_eq']

/-- **Which numbers are filed between the ends** of a bounded range. -/
theorem meetsEnds_iff (hr : r.ends ≠ []) (numbers : ∀ e ∈ r.ends, e.IsNumber)
    (hv : v.asNumber? = some x) :
    MeetsEnds numberKey? r x.totalKey ↔
      (r.aboveLower v = true ∧ r.belowUpper v = true ∧ ¬ r.Misses v) ∨ r.Adds v := by
  have parts : MeetsEnds numberKey? r x.totalKey ↔ _ ∧ _ :=
    ⟨fun h => ⟨h.lower, h.upper⟩, fun h => ⟨h.1, h.2⟩⟩
  rw [parts, ValueRange.adds_iff, ValueRange.Misses, hv, Option.any_some, Option.any_some]
  have zeros : Binary64.negativeZero ≠ Binary64.positiveZero := by decide
  have negative : Binary64.isNaN .negativeZero = false := by decide
  have positive : Binary64.isNaN .positiveZero = false := by decide
  -- What is left at each end are sentences about the signs of `x` and of the ends.
  cases hlower : r.lower with
  | none =>
      have above : r.aboveLower v = true := ValueRange.aboveLower_of_none hlower
      cases hupper : r.upper with
      | none => exact absurd (ValueRange.ends_eq_nil_iff.mpr ⟨hlower, hupper⟩) hr
      | some u =>
          obtain ⟨z, hz, number⟩ := numbers u (ValueRange.mem_ends.mpr (Or.inr hupper))
          have below := ValueRange.belowUpper_number_iff hupper hv hz number
          have touching := ValueRange.belowUpper_zero_iff hupper hv hz
          rw [← hupper, meetsUpper_iff hupper hv hz number, hupper, Option.bind_some, hz]
          grind
  | some l =>
      obtain ⟨y, hy, number⟩ := numbers l (ValueRange.mem_ends.mpr (Or.inl hlower))
      have above := ValueRange.aboveLower_number_iff hlower hv hy number
      have touching := ValueRange.aboveLower_zero_iff hlower hv hy
      rw [← hlower, meetsLower_iff hlower hv hy number, hlower, Option.bind_some, hy]
      cases hupper : r.upper with
      | none =>
          have below : r.belowUpper v = true := ValueRange.belowUpper_of_none hupper
          grind
      | some u =>
          obtain ⟨z, hz, number⟩ := numbers u (ValueRange.mem_ends.mpr (Or.inr hupper))
          have below := ValueRange.belowUpper_number_iff hupper hv hz number
          have touching' := ValueRange.belowUpper_zero_iff hupper hv hz
          rw [← hupper, meetsUpper_iff hupper hv hz number, hupper, Option.bind_some, hz]
          grind

/-- Which dates are filed between the ends of a range whose ends are dates. -/
theorem meetsEnds_date_iff (dates : ∀ e ∈ r.ends, e.isDate = true) (d : Date) :
    MeetsEnds dateKey? r d.orderKey ↔
      r.aboveLower (.date d) = true ∧ r.belowUpper (.date d) = true := by
  have isDate {e : Value} (he : e ∈ r.ends) : ∃ d, e = .date d := by
    have hdate := dates e he
    cases e with
    | date d => exact ⟨d, rfl⟩
    | int i => cases hdate
    | float x => cases hdate
    | bool b => cases hdate
    | text s => cases hdate
  have lower : (∀ j, r.lower.bind dateKey? = some j →
      j < (d.orderKey : Int) ∨ (j = d.orderKey ∧ r.includeLower = true)) ↔
      r.aboveLower (.date d) = true := by
    cases hlower : r.lower with
    | none => simp [ValueRange.aboveLower_of_none hlower]
    | some e =>
        obtain ⟨d', rfl⟩ := isDate (ValueRange.mem_ends.mpr (Or.inl hlower))
        rw [ValueRange.aboveLower_iff hlower (Value.compare?_date d d')]
        simp [dateKey?, Value.asDate?]
  have upper : (∀ j, r.upper.bind dateKey? = some j →
      (d.orderKey : Int) < j ∨ ((d.orderKey : Int) = j ∧ r.includeUpper = true)) ↔
      r.belowUpper (.date d) = true := by
    cases hupper : r.upper with
    | none => simp [ValueRange.belowUpper_of_none hupper]
    | some e =>
        obtain ⟨d', rfl⟩ := isDate (ValueRange.mem_ends.mpr (Or.inr hupper))
        rw [ValueRange.belowUpper_iff hupper (Value.compare?_date d d')]
        simp [dateKey?, Value.asDate?]
  rw [← lower, ← upper]
  exact ⟨fun h => ⟨h.lower, h.upper⟩, fun h => ⟨h.1, h.2⟩⟩

/-- A range without ends is looked up among the dates and among the numbers, with no bounds. -/
theorem finds_of_no_ends (hr : r.ends = []) :
    Finds r v ↔ v.isDate = true ∨ v.asNumber?.isSome = true := by
  have unbounded := isUnbounded_iff.mpr hr
  obtain ⟨hlower, hupper⟩ := ValueRange.ends_eq_nil_iff.mp hr
  rw [Finds, dateWindow?, numberWindow?, unbounded, window, window, hlower, hupper]
  cases v <;> simp [dateKey?, numberKey?, Window.contains, Bound.at, Bound.admitsAbove,
    Bound.admitsBelow, Value.isDate, Value.asDate?, Value.asNumber?]

/-- A range between dates is looked up among the dates. -/
theorem finds_of_dates (hr : r.ends ≠ []) (dates : ∀ e ∈ r.ends, e.isDate = true) :
    Finds r v ↔ r.contains v = true := by
  have bounded : isUnbounded r = false := by rwa [← Bool.not_eq_true, isUnbounded_iff]
  have hdate := ValueRange.isDateRange_of_dates dates hr
  simp only [Finds, dateWindow?, numberWindow?, bounded, hdate, Bool.false_or, Bool.not_true,
    Bool.false_eq_true, if_true, if_false, reduceCtorEq, false_and, exists_false, or_false,
    Option.some.injEq, exists_eq_left', ValueRange.contains, ValueRange.sameKind]
  cases v with
  | date d =>
      simp only [dateKey?, Value.asDate?, Option.map_some, Option.some.injEq, exists_eq_left',
        Value.isDate, Option.isSome_some, Bool.true_and, Bool.and_eq_true]
      exact contains_window_iff.trans (meetsEnds_date_iff dates d)
  | int i => simp [dateKey?, Value.asDate?, Value.isDate]
  | float x => simp [dateKey?, Value.asDate?, Value.isDate]
  | bool b => simp [dateKey?, Value.asDate?, Value.isDate]
  | text s => simp [dateKey?, Value.asDate?, Value.isDate]

/-- A range between numbers is looked up among the numbers. -/
theorem finds_of_numbers (hr : r.ends ≠ []) (numbers : ∀ e ∈ r.ends, e.IsNumber) :
    Finds r v ↔ (r.contains v = true ∧ ¬ r.Misses v) ∨ r.Adds v := by
  have bounded : isUnbounded r = false := by rwa [← Bool.not_eq_true, isUnbounded_iff]
  have hdate := ValueRange.isDateRange_of_numbers numbers
  simp only [Finds, dateWindow?, numberWindow?, bounded, hdate, Bool.false_or, Bool.not_false,
    Bool.false_eq_true, if_true, if_false, reduceCtorEq, false_and, exists_false, false_or,
    Option.some.injEq, exists_eq_left', contains_window_iff, ValueRange.contains,
    ValueRange.sameKind]
  cases hv : v.asNumber? with
  | none =>
      have nothing : ¬ r.Adds v := by
        rintro (⟨unbounded, -⟩ | ⟨number, -, -, -, -⟩ | ⟨number, -, -, -, -⟩ | ⟨number, -, -, -, -⟩ |
          ⟨number, -, -, -, -⟩)
        · exact hr unbounded
        all_goals
          rw [hv] at number
          cases number
      simp [numberKey?, hv, nothing]
  | some x =>
      simp only [numberKey?, hv, Option.map_some, Option.some.injEq, exists_eq_left',
        Option.isSome_some, Bool.true_and, Bool.and_eq_true, and_assoc]
      exact meetsEnds_iff hr numbers hv

/-- **What an index finds**, compared with what the range contains, if the ends are of one kind. -/
theorem finds_iff (uniform : r.Uniform) :
    Finds r v ↔ (r.contains v = true ∧ ¬ r.Misses v) ∨ r.Adds v := by
  by_cases hr : r.ends = []
  · obtain ⟨hlower, hupper⟩ := ValueRange.ends_eq_nil_iff.mp hr
    have lower : r.lower.bind Value.asNumber? = none := by rw [hlower]; rfl
    have upper : r.upper.bind Value.asNumber? = none := by rw [hupper]; rfl
    have contains : r.contains v = true ↔ v.asNumber?.isSome = true := by
      simp [ValueRange.contains, ValueRange.sameKind, ValueRange.isDateRange,
        ValueRange.aboveLower_of_none hlower, ValueRange.belowUpper_of_none hupper, hlower, hupper]
    rw [finds_of_no_ends hr, contains, ValueRange.adds_iff_of_no_numbers lower upper,
      and_iff_left (ValueRange.not_misses_of_no_numbers lower upper), and_iff_right hr, or_comm]
  · rcases uniform with dates | numbers
    · have noNumber (e : Value) (he : e ∈ r.ends) : e.asNumber? = none := by
        have hdate := dates e he
        cases e with
        | date d => rfl
        | bool b => rfl
        | text s => rfl
        | int i => cases hdate
        | float x => cases hdate
      have lower : r.lower.bind Value.asNumber? = none :=
        Option.bind_eq_none_iff.mpr fun e he => noNumber e (ValueRange.mem_ends.mpr (Or.inl he))
      have upper : r.upper.bind Value.asNumber? = none :=
        Option.bind_eq_none_iff.mpr fun e he => noNumber e (ValueRange.mem_ends.mpr (Or.inr he))
      rw [finds_of_dates hr dates, ValueRange.adds_iff_of_no_numbers lower upper,
        and_iff_left (ValueRange.not_misses_of_no_numbers lower upper),
        or_iff_left fun h => hr h.1]
    · exact finds_of_numbers hr numbers

end RangeIndex

/-! ### What a store finds -/

namespace Store

variable {entityType property : String}

/-- **A lookup of a range** in a property with a range index succeeds and finds the records with a
value that the index finds. -/
theorem Consistent.lookup_range {s : Store} (h : s.Consistent)
    (indexed : s.Holds (.index entityType property)) (r : ValueRange) :
    ∃ ids, s.lookup entityType property (.range r) = .ok ids ∧
      ∀ id, id ∈ ids ↔ ∃ v, RangeIndex.Finds r v ∧ s.Holds (.fact entityType id property v) := by
  cases ht : s.tables[entityType]? with
  | none =>
      rw [Holds, table, Std.HashMap.getD_eq_getD_getElem?, ht] at indexed
      exact absurd indexed Std.HashMap.not_mem_empty
  | some t =>
      rw [Holds, table_of_some ht, Std.HashMap.mem_iff_isSome_getElem?] at indexed
      obtain ⟨index, hindex⟩ := Option.isSome_iff_exists.mp indexed
      refine ⟨index.lookup r, ?_, fun id => ?_⟩
      · rw [lookup, ht]
        dsimp only
        rw [hindex]
      · simp only [Holds, table_of_some ht]
        exact ((h entityType t ht).indexes property index hindex).mem_lookup

/-- A range with ends of one kind, in a store that is built up. -/
theorem lookup_range_of_uniform (ops : List StoreOp) {r : ValueRange}
    (indexed : .index entityType property ∈ ops.flatMap StoreOp.contributions)
    (uniform : r.Uniform) :
    ∃ ids, (build ops).lookup entityType property (.range r) = .ok ids ∧
      ∀ id, id ∈ ids ↔
        ∃ v, .fact entityType id property v ∈ ops.flatMap StoreOp.contributions ∧
          ((r.contains v = true ∧ ¬ r.Misses v) ∨ r.Adds v) := by
  obtain ⟨ids, hids, hmem⟩ := (consistent_build ops).lookup_range (holds_build.mpr indexed) r
  refine ⟨ids, hids, fun id => (hmem id).trans (exists_congr fun v => ?_)⟩
  rw [RangeIndex.finds_iff uniform, holds_build, and_comm]

/-- **An indexed property and a range that somebody has written.**  The lookup succeeds, and it
finds exactly the records that were given a value in the range, with two exceptions: the values that
an index misses in the range, and those that it finds beside it. -/
theorem lookup_range_finds_contained (ops : List StoreOp) {text : String} {r : ValueRange}
    (indexed : .index entityType property ∈ ops.flatMap StoreOp.contributions)
    (written : ValueMatch.classify (.text text) = .ok (.range r)) :
    (∃ ids, (build ops).lookup entityType property (.range r) = .ok ids ∧
      ∀ id, id ∈ ids ↔
        ∃ v, .fact entityType id property v ∈ ops.flatMap StoreOp.contributions ∧
          ((r.contains v = true ∧ ¬ r.Misses v) ∨ r.Adds v)) ∧
      ∀ v, r.Adds v → r.contains v = false :=
  ⟨lookup_range_of_uniform ops indexed (uniform_of_classify written),
    fun _ hadds => hadds.not_contains⟩

/-- A column of all kinds of values, and a range that begins at a zero: the negative zero is missed,
and the NaN is found beside the range. -/
theorem lookup_range_finds_contained_in_mixed_column :
    let infinity : Value := .float ⟨0x7FF0000000000000⟩
    let nan : Value := .float ⟨0x7FF8000000000000⟩
    let minusZero : Value := .float ⟨0x8000000000000000⟩
    let leapDay : Value := .date ⟨2020, 2, 29, by decide, by decide, by decide⟩
    let ops : List StoreOp :=
      [.insert "shoe" 1 [("price", .int 0), ("price", .text "0")], .createRangeIndex "shoe" "price",
        .insert "shoe" 2 [("price", infinity)], .insert "shoe" 3 [("price", leapDay)],
        .insert "shoe" 4 [("price", nan)], .insert "shoe" 5 [("price", minusZero)],
        .insert "shoe" 6 [("price", .bool true)]]
    let r : ValueRange := ⟨some (.int 0), none, true, false⟩
    .index "shoe" "price" ∈ ops.flatMap StoreOp.contributions ∧
      ValueMatch.classify (.text " [0, )") = .ok (.range r) ∧
      r.contains minusZero = true ∧ r.contains nan = false ∧
      ∃ ids, (build ops).lookup "shoe" "price" (.range r) = .ok ids ∧
        1 ∈ ids ∧ 2 ∈ ids ∧ 3 ∉ ids ∧ 4 ∈ ids ∧ 5 ∉ ids ∧ 6 ∉ ids := by
  intro infinity nan minusZero leapDay ops r
  have indexed : .index "shoe" "price" ∈ ops.flatMap StoreOp.contributions := by decide
  have written : ValueMatch.classify (.text " [0, )") = .ok (.range r) := by decide
  obtain ⟨⟨ids, hids, hmem⟩, -⟩ := lookup_range_finds_contained ops indexed written
  have only {id : RecordId} (w : Value)
      (hfact : ∀ v, .fact "shoe" id "price" v ∈ ops.flatMap StoreOp.contributions ↔ v = w) :
      id ∈ ids ↔ (r.contains w = true ∧ ¬ r.Misses w) ∨ r.Adds w := by
    rw [hmem]
    simp only [hfact, exists_eq_left]
  refine ⟨indexed, written, by decide +kernel, by decide +kernel, ids, hids, ?_, ?_, ?_, ?_, ?_, ?_⟩
  · exact (hmem 1).mpr ⟨.int 0, by decide, by decide +kernel⟩
  · exact (hmem 2).mpr ⟨infinity, by decide, by decide +kernel⟩
  · rw [only leapDay fun v => by simp [ops, StoreOp.contributions]]
    decide +kernel
  · exact (hmem 4).mpr ⟨nan, by decide, by decide +kernel⟩
  · rw [only minusZero fun v => by simp [ops, StoreOp.contributions]]
    decide +kernel
  · rw [only (.bool true) fun v => by simp [ops, StoreOp.contributions]]
    decide +kernel

/-- What is found is not what is contained: from zero on the negative zero is missed and a NaN is
found, and without ends a date is found. -/
theorem lookup_range_departs_from_contained :
    let minusZero : Value := .float ⟨0x8000000000000000⟩
    let nan : Value := .float ⟨0x7FF8000000000000⟩
    let newYear : Value := .date ⟨2020, 1, 1, by decide, by decide, by decide⟩
    let ops : List StoreOp :=
      [.createRangeIndex "shoe" "price", .insert "shoe" 1 [("price", minusZero)],
        .insert "shoe" 2 [("price", nan)], .insert "shoe" 3 [("price", newYear)]]
    let findsContained (r : ValueRange) : Prop :=
      ∃ ids, (build ops).lookup "shoe" "price" (.range r) = .ok ids ∧
        ∀ id, id ∈ ids ↔ ∃ v, .fact "shoe" id "price" v ∈ ops.flatMap StoreOp.contributions ∧
          r.contains v = true
    let fromZero : ValueRange := ⟨some (.int 0), none, true, true⟩
    let unbounded : ValueRange := ⟨none, none, true, true⟩
    .index "shoe" "price" ∈ ops.flatMap StoreOp.contributions ∧
      ValueMatch.classify (.text "[0,]") = .ok (.range fromZero) ∧
      ValueMatch.classify (.text "[,]") = .ok (.range unbounded) ∧
      ¬ findsContained fromZero ∧ ¬ findsContained unbounded := by
  intro minusZero nan newYear ops findsContained fromZero unbounded
  have indexed : .index "shoe" "price" ∈ ops.flatMap StoreOp.contributions := by decide
  have fromZeroWritten : ValueMatch.classify (.text "[0,]") = .ok (.range fromZero) := by decide
  have unboundedWritten : ValueMatch.classify (.text "[,]") = .ok (.range unbounded) := by decide
  refine ⟨indexed, fromZeroWritten, unboundedWritten, ?_, ?_⟩
  · rintro ⟨ids, hids, hmem⟩
    obtain ⟨found, hfound, hfinds⟩ :=
      lookup_range_of_uniform ops indexed (uniform_of_classify fromZeroWritten)
    obtain rfl := Except.ok.inj (hids.symm.trans hfound)
    have hid : 2 ∈ ids := (hfinds 2).mpr ⟨nan, by decide, by decide +kernel⟩
    obtain ⟨v, hv, hcontains⟩ := (hmem 2).mp hid
    obtain rfl : v = nan := by simpa [ops, StoreOp.contributions] using hv
    revert hcontains
    decide +kernel
  · rintro ⟨ids, hids, hmem⟩
    obtain ⟨found, hfound, hfinds⟩ :=
      lookup_range_of_uniform ops indexed (uniform_of_classify unboundedWritten)
    obtain rfl := Except.ok.inj (hids.symm.trans hfound)
    have hid : 3 ∈ ids := (hfinds 3).mpr ⟨newYear, by decide, by decide +kernel⟩
    obtain ⟨v, hv, hcontains⟩ := (hmem 3).mp hid
    obtain rfl : v = newYear := by simpa [ops, StoreOp.contributions] using hv
    revert hcontains
    decide

end Store
end FacetQuery
