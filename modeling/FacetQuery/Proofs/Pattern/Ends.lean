import FacetQuery.Pattern.Match
import FacetQuery.Proofs.Binary64.Order

/-!
# The ends of a range

A range as a value may have ends of any kind.  A range that a text is recognised as may not: its
ends are all dates, or all numbers (`ValueRange.Uniform`), because the reader refuses a date beside
a number and rounds what it reads to a number.
-/

namespace FacetQuery

variable {text : String} {side : RangeSide} {cs : List Char} {parts : RangeText} {r : ValueRange}
  {v e : Value}

def ValueRange.ends (r : ValueRange) : List Value :=
  r.lower.toList ++ r.upper.toList

/-- A value that is a number, and not a NaN. -/
def Value.IsNumber (v : Value) : Prop :=
  ∃ x, v.asNumber? = some x ∧ x.isNaN = false

/-- The ends of the range are dates, or they are numbers. -/
def ValueRange.Uniform (r : ValueRange) : Prop :=
  (∀ e ∈ r.ends, e.isDate = true) ∨ ∀ e ∈ r.ends, e.IsNumber

theorem ValueRange.mem_ends : e ∈ r.ends ↔ r.lower = some e ∨ r.upper = some e := by
  rw [ends, List.mem_append, Option.mem_toList, Option.mem_toList]

theorem Value.isNumber_int (i : Int64) : (Value.int i).IsNumber :=
  ⟨_, rfl, Binary64.isNaN_ofInt i.toInt⟩

theorem Value.isNumber_float {x : Binary64} (h : x.isNaN = false) : (Value.float x).IsNumber :=
  ⟨x, rfl, h⟩

theorem ValueRange.ends_eq_nil_iff : r.ends = [] ↔ r.lower = none ∧ r.upper = none := by
  rw [ends, List.append_eq_nil_iff, Option.toList_eq_nil_iff, Option.toList_eq_nil_iff]

theorem Value.IsNumber.isDate_eq_false (h : v.IsNumber) : v.isDate = false := by
  obtain ⟨x, hx, -⟩ := h
  cases v with
  | int i => rfl
  | float y => rfl
  | bool b => cases hx
  | text s => cases hx
  | date d => cases hx

theorem ValueRange.isDateRange_iff : r.isDateRange = true ↔ ∃ e ∈ r.ends, e.isDate = true := by
  rw [isDateRange, Bool.or_eq_true, Option.any_eq_true, Option.any_eq_true]
  simp only [mem_ends, or_and_right, exists_or]

/-- A range whose ends are dates is a date range, if it has an end. -/
theorem ValueRange.isDateRange_of_dates (h : ∀ e ∈ r.ends, e.isDate = true) (hr : r.ends ≠ []) :
    r.isDateRange = true := by
  obtain ⟨e, he⟩ := List.exists_mem_of_ne_nil _ hr
  exact isDateRange_iff.mpr ⟨e, he, h e he⟩

theorem ValueRange.isDateRange_of_numbers (h : ∀ e ∈ r.ends, e.IsNumber) :
    r.isDateRange = false := by
  rw [← Bool.not_eq_true, isDateRange_iff]
  rintro ⟨e, he, hdate⟩
  rw [(h e he).isDate_eq_false] at hdate
  cases hdate

/-- Ends each of which is a date or a number are of one kind when no date meets a number. -/
theorem ValueRange.uniform_of_alike (kinds : ∀ e ∈ r.ends, e.isDate = true ∨ e.IsNumber)
    (alike : ∀ l u, r.lower = some l → r.upper = some u → l.isDate = u.isDate) : r.Uniform := by
  have same : ∀ e ∈ r.ends, ∀ f ∈ r.ends, e.isDate = f.isDate := by
    intro e he f hf
    rcases mem_ends.mp he with hle | hue
    · rcases mem_ends.mp hf with hlf | huf
      · exact congrArg Value.isDate (Option.some.inj (hle.symm.trans hlf))
      · exact alike e f hle huf
    · rcases mem_ends.mp hf with hlf | huf
      · exact (alike f e hlf hue).symm
      · exact congrArg Value.isDate (Option.some.inj (hue.symm.trans huf))
  by_cases dates : ∀ e ∈ r.ends, e.isDate = true
  · exact Or.inl dates
  · right
    intro e he
    refine (kinds e he).resolve_left fun hdate => dates fun f hf => ?_
    rw [same f hf e he, hdate]

namespace RangeText

/-- A text of the form of a number is read as a number. -/
theorem isNumber_numberValue (cs : List Char) : (numberValue cs).IsNumber := by
  have double (negative : Bool) (coefficient : Nat) (exponent : Int) :
      (Value.float (Binary64.ofDecimal negative coefficient exponent)).IsNumber :=
    Value.isNumber_float (Binary64.isNaN_ofDecimal negative coefficient exponent)
  unfold numberValue
  split
  dsimp only
  split
  · exact double _ _ _
  · cases int64? _ with
    | some i => exact Value.isNumber_int i
    | none => exact double _ _ _

/-- An end that is read is a date or a number. -/
theorem isDate_or_isNumber_of_boundValue (h : boundValue text side cs = .ok (some e)) :
    e.isDate = true ∨ e.IsNumber := by
  rw [boundValue] at h
  split at h
  · cases h
  · split at h
    · cases h
      exact Or.inr (isNumber_numberValue cs)
    · split at h
      · cases h
        exact Or.inl rfl
      · cases h

/-- **The ends of a range that is read are of one kind.** -/
theorem uniform_of_toRange (h : parts.toRange text = .ok r) : r.Uniform := by
  rw [toRange] at h
  cases hlower : boundValue text .lower parts.lower with
  | error fault => simp [hlower, bind, Except.bind] at h
  | ok lower =>
      cases hupper : boundValue text .upper parts.upper with
      | error fault => simp [hlower, hupper, bind, Except.bind] at h
      | ok upper =>
          simp only [hlower, hupper, bind, Except.bind] at h
          split at h
          · cases h
          · rename_i hmixed
            cases h
            refine ValueRange.uniform_of_alike (fun e he => ?_) fun l u hl hu => ?_
            · rcases ValueRange.mem_ends.mp he with rfl | rfl
              · exact isDate_or_isNumber_of_boundValue hlower
              · exact isDate_or_isNumber_of_boundValue hupper
            · cases hl
              cases hu
              simpa [areMixed] using hmixed

end RangeText

/-- **A range that a text is recognised as has ends of one kind.** -/
theorem uniform_of_classify (h : ValueMatch.classify v = .ok (.range r)) : r.Uniform := by
  cases v with
  | text s =>
      rw [ValueMatch.classify] at h
      cases hparts : RangeText.ofText? s.toList with
      | some parts =>
          rw [hparts] at h
          cases hrange : parts.toRange s with
          | error fault => simp [hrange, Except.map] at h
          | ok r' =>
              simp only [hrange, Except.map, Except.ok.injEq, ValueMatch.range.injEq] at h
              exact h ▸ RangeText.uniform_of_toRange hrange
      | none =>
          rw [hparts, Except.ok.injEq, ValueMatch.ofPattern] at h
          split at h <;> cases h
  | bool b => cases h
  | int i => cases h
  | float x => cases h
  | date d => cases h

end FacetQuery
