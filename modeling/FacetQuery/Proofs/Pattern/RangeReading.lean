import FacetQuery.Proofs.Date
import FacetQuery.Proofs.Pattern.RangeForm

/-!
# What a text that is looked up as a range results in

A text that is written as a range is a range or an error, and no other text is either
(`classify_of_spellsRange`, `classify_of_not_spelled`).  Which of the two it is, and which error,
depends on what is read in the place of the two ends:

* a day that does not exist is an error, and at the lower end it is the one that is reported;
* otherwise a number beside a date is an error;
* otherwise the text is the range between what was read.

A range whose ends are integers, or are dates, is written so that it is read back, whatever the
brackets and the margins (`classify_write`).
-/

namespace FacetQuery

open RangeText Text

/-! ### Readings -/

namespace RangeText

/-- What is read in the place of the ends, and which of them belong to the range. -/
structure RangeReading where
  includeLower : Bool
  lower : EndReading
  upper : EndReading
  includeUpper : Bool

/-- **How a range is written**, and what is read there. -/
inductive SpellsRange : List Char → RangeReading → Prop where
  | intro {lowerText upperText : List Char} {lower upper : EndReading} (m : Margins)
      (includeLower includeUpper : Bool) (hlower : SpellsEnd lowerText lower)
      (hupper : SpellsEnd upperText upper) :
      SpellsRange (write m ⟨includeLower, lowerText, upperText, includeUpper⟩)
        ⟨includeLower, lower, upper, includeUpper⟩

namespace EndReading

/-- The value that was read, if the end is missing or there is a value. -/
def value? : EndReading → Option (Option Value)
  | missing => some none
  | int i => some (some (.int i))
  | double x => some (some (.float x))
  | day d => some (some (.date d))
  | noDay _ => none

def isNumber : EndReading → Bool
  | int _ => true
  | double _ => true
  | _ => false

def isDay : EndReading → Bool
  | day _ => true
  | _ => false

/-- An end is missing or there is a value, or the text is about a day that does not exist. -/
theorem exists_value?_or_noDay (e : EndReading) :
    (∃ v, e.value? = some v) ∨ ∃ cs, e = .noDay cs := by
  cases e with
  | missing => exact Or.inl ⟨_, rfl⟩
  | int i => exact Or.inl ⟨_, rfl⟩
  | double x => exact Or.inl ⟨_, rfl⟩
  | day d => exact Or.inl ⟨_, rfl⟩
  | noDay cs => exact Or.inr ⟨cs, rfl⟩

theorem result_of_value? {e : EndReading} {v : Option Value} (h : e.value? = some v)
    (text : String) (side : RangeSide) : e.result text side = .ok v := by
  cases e <;> cases h <;> rfl

theorem ne_noDay_of_value? {e : EndReading} {v : Option Value} (h : e.value? = some v)
    (cs : List Char) : e ≠ .noDay cs := by
  rintro rfl
  cases h

end EndReading

namespace RangeReading

/-- The given end is the first one at which a text names a day that does not exist. -/
def FirstNoDay (reading : RangeReading) (side : RangeSide) (text : List Char) : Prop :=
  match side with
  | .lower => reading.lower = .noDay text
  | .upper => reading.upper = .noDay text ∧ ∀ lowerText, reading.lower ≠ .noDay lowerText

/-- One end is a number and the other one is a date. -/
def IsMixed (reading : RangeReading) : Prop :=
  (reading.lower.isNumber = true ∧ reading.upper.isDay = true) ∨
    (reading.lower.isDay = true ∧ reading.upper.isNumber = true)

/-- The range is the one between what was read. -/
def Means (reading : RangeReading) (r : ValueRange) : Prop :=
  reading.lower.value? = some r.lower ∧ reading.upper.value? = some r.upper ∧
    reading.includeLower = r.includeLower ∧ reading.includeUpper = r.includeUpper

/-- What a text with this reading results in. -/
def result (text : String) (reading : RangeReading) : Except RangeError ValueRange := do
  let lower ← reading.lower.result text .lower
  let upper ← reading.upper.result text .upper
  if areMixed lower upper then throw (.mixedBounds text)
  else pure ⟨lower, upper, reading.includeLower, reading.includeUpper⟩

variable {reading : RangeReading} {text : String} {lower upper : Option Value}

theorem result_of_noDay_lower {cs : List Char} (h : reading.lower = .noDay cs) :
    reading.result text = .error (.invalidBound .lower (String.ofList cs) text) := by
  rw [result, h]
  rfl

theorem result_of_noDay_upper {cs : List Char} (hlower : reading.lower.value? = some lower)
    (h : reading.upper = .noDay cs) :
    reading.result text = .error (.invalidBound .upper (String.ofList cs) text) := by
  rw [result, EndReading.result_of_value? hlower, h]
  rfl

theorem result_of_values (hlower : reading.lower.value? = some lower)
    (hupper : reading.upper.value? = some upper) :
    reading.result text =
      if areMixed lower upper then .error (.mixedBounds text)
      else .ok ⟨lower, upper, reading.includeLower, reading.includeUpper⟩ := by
  rw [result, EndReading.result_of_value? hlower, EndReading.result_of_value? hupper]
  rfl

theorem areMixed_iff (hlower : reading.lower.value? = some lower)
    (hupper : reading.upper.value? = some upper) :
    areMixed lower upper = true ↔ reading.IsMixed := by
  obtain ⟨includeLower, l, u, includeUpper⟩ := reading
  cases l <;> cases hlower <;> cases u <;> cases hupper <;>
    simp [IsMixed, areMixed, Value.isDate, Value.asDate?, EndReading.isNumber, EndReading.isDay]

theorem not_isMixed_of_noDay {cs : List Char}
    (h : reading.lower = .noDay cs ∨ reading.upper = .noDay cs) : ¬ reading.IsMixed := by
  rw [IsMixed]
  rcases h with h | h <;> simp [h, EndReading.isNumber, EndReading.isDay]

/-- **A day that does not exist** is reported at the first end where there is one. -/
theorem result_eq_invalidBound_iff {side : RangeSide} {bound text' : String} :
    reading.result text = .error (.invalidBound side bound text') ↔
      text' = text ∧ reading.FirstNoDay side bound.toList := by
  have same (cs : List Char) : String.ofList cs = bound ↔ cs = bound.toList :=
    ⟨fun h => h ▸ String.toList_ofList.symm, fun h => h ▸ String.ofList_toList⟩
  rcases reading.lower.exists_value?_or_noDay with ⟨lower, hlower⟩ | ⟨cs, hlower⟩
  · rcases reading.upper.exists_value?_or_noDay with ⟨upper, hupper⟩ | ⟨cs, hupper⟩
    · rw [result_of_values hlower hupper]
      refine iff_of_false ?_ ?_
      · split <;> simp
      · rintro ⟨-, h⟩
        cases side with
        | lower => exact EndReading.ne_noDay_of_value? hlower _ h
        | upper => exact EndReading.ne_noDay_of_value? hupper _ h.1
    · rw [result_of_noDay_upper hlower hupper]
      cases side with
      | lower => simp [FirstNoDay, EndReading.ne_noDay_of_value? hlower]
      | upper =>
          simp [FirstNoDay, hupper, EndReading.ne_noDay_of_value? hlower, same, and_comm,
            eq_comm (a := text)]
  · rw [result_of_noDay_lower hlower]
    cases side with
    | lower => simp [FirstNoDay, hlower, same, and_comm, eq_comm (a := text)]
    | upper => simp [FirstNoDay, hlower]

/-- **A number beside a date** is reported if all days exist. -/
theorem result_eq_mixedBounds_iff {text' : String} :
    reading.result text = .error (.mixedBounds text') ↔ text' = text ∧ reading.IsMixed := by
  rcases reading.lower.exists_value?_or_noDay with ⟨lower, hlower⟩ | ⟨cs, hlower⟩
  · rcases reading.upper.exists_value?_or_noDay with ⟨upper, hupper⟩ | ⟨cs, hupper⟩
    · rw [result_of_values hlower hupper, ← areMixed_iff hlower hupper]
      cases areMixed lower upper <;> simp [eq_comm]
    · rw [result_of_noDay_upper hlower hupper]
      exact iff_of_false (by simp) fun h => not_isMixed_of_noDay (Or.inr hupper) h.2
  · rw [result_of_noDay_lower hlower]
    exact iff_of_false (by simp) fun h => not_isMixed_of_noDay (Or.inl hlower) h.2

/-- **Everything else is a range**, the one between what was read. -/
theorem result_eq_ok_iff {r : ValueRange} :
    reading.result text = .ok r ↔ ¬ reading.IsMixed ∧ reading.Means r := by
  obtain ⟨l, u, includeLower, includeUpper⟩ := r
  rcases reading.lower.exists_value?_or_noDay with ⟨lower, hlower⟩ | ⟨cs, hlower⟩
  · rcases reading.upper.exists_value?_or_noDay with ⟨upper, hupper⟩ | ⟨cs, hupper⟩
    · rw [result_of_values hlower hupper, ← areMixed_iff hlower hupper]
      cases areMixed lower upper <;> simp [Means, hlower, hupper]
    · rw [result_of_noDay_upper hlower hupper]
      simp [Means, hupper, EndReading.value?]
  · rw [result_of_noDay_lower hlower]
    simp [Means, hlower, EndReading.value?]

end RangeReading
end RangeText

/-! ### Classification -/

namespace ValueMatch

variable {s : String} {reading : RangeReading}

/-- **A text that is written as a range** results in what its reading results in. -/
theorem classify_of_spellsRange (h : SpellsRange s.toList reading) :
    classify (.text s) = (reading.result s).map .range := by
  generalize hcs : s.toList = cs at h
  cases h with
  | @intro lowerText upperText _ _ m includeLower includeUpper hlower hupper =>
      have hparts : ofText? s.toList = some ⟨includeLower, lowerText, upperText, includeUpper⟩ :=
        ofText?_eq_some_iff.mpr ⟨isBound_iff.mpr ⟨_, hlower⟩, isBound_iff.mpr ⟨_, hupper⟩, m, hcs⟩
      rw [classify, hparts]
      dsimp only
      rw [toRange, boundValue_of_spellsEnd hlower, boundValue_of_spellsEnd hupper]
      rfl

/-- **No other text is looked up as a range.** -/
theorem classify_of_not_spelled (h : ¬ ∃ reading, SpellsRange s.toList reading) :
    classify (.text s) = .ok (ofPattern s) := by
  have hparts : ofText? s.toList = none := by
    rw [Option.eq_none_iff_forall_ne_some]
    intro parts hparts
    obtain ⟨hlower, hupper, m, hcs⟩ := ofText?_eq_some_iff.mp hparts
    obtain ⟨lower, hlower⟩ := isBound_iff.mp hlower
    obtain ⟨upper, hupper⟩ := isBound_iff.mp hupper
    refine h ⟨⟨parts.includeLower, lower, upper, parts.includeUpper⟩, ?_⟩
    rw [hcs]
    exact .intro m parts.includeLower parts.includeUpper hlower hupper
  rw [classify, hparts]

theorem ofPattern_ne_range (s : String) (r : ValueRange) : ofPattern s ≠ .range r := by
  rw [ofPattern]
  split <;> simp

/-- Which texts are looked up as ranges. -/
theorem exists_range_or_error_iff :
    ((∃ r, classify (.text s) = .ok (.range r)) ∨ ∃ fault, classify (.text s) = .error fault) ↔
      ∃ reading, SpellsRange s.toList reading := by
  constructor
  · intro h
    by_contra hno
    rw [classify_of_not_spelled hno] at h
    rcases h with ⟨r, hr⟩ | ⟨fault, hfault⟩
    · exact ofPattern_ne_range s r (Except.ok.inj hr)
    · cases hfault
  · rintro ⟨reading, h⟩
    rw [classify_of_spellsRange h]
    cases reading.result s with
    | ok r => exact Or.inl ⟨r, rfl⟩
    | error fault => exact Or.inr ⟨fault, rfl⟩

theorem classify_eq_error_iff (h : SpellsRange s.toList reading) {fault : RangeError} :
    classify (.text s) = .error fault ↔ reading.result s = .error fault := by
  rw [classify_of_spellsRange h]
  cases reading.result s <;> simp [Except.map]

theorem classify_eq_range_iff (h : SpellsRange s.toList reading) {r : ValueRange} :
    classify (.text s) = .ok (.range r) ↔ reading.result s = .ok r := by
  rw [classify_of_spellsRange h]
  cases reading.result s <;> simp [Except.map]

end ValueMatch

/-! ### Writing ranges -/

namespace Text

variable {width n : Nat}

theorem length_paddedNumeral (h : (numeral n).length ≤ width) :
    (paddedNumeral width n).length = width := by
  rw [paddedNumeral]
  simp only [List.length_append, List.length_replicate]
  omega

theorem isDigit_of_mem_paddedNumeral {c : Char} (h : c ∈ paddedNumeral width n) :
    c.isDigit = true := by
  rw [paddedNumeral] at h
  rcases List.mem_append.mp h with h | h
  · rw [List.eq_of_mem_replicate h]
    rfl
  · exact isDigit_of_mem_numeral h

/-- Zeros in front of a numeral do not change its value. -/
theorem numeralValue_paddedNumeral (width n : Nat) :
    numeralValue (paddedNumeral width n) = n := by
  have zeros (k : Nat) : numeralValue (List.replicate k '0' ++ numeral n) = n := by
    change Nat.ofDigitChars 10 (List.replicate k '0' ++ numeral n) 0 = n
    rw [Nat.ofDigitChars_append, Nat.ofDigitChars_replicate_zero, Nat.mul_zero]
    exact numeralValue_numeral n
  exact zeros _

end Text

namespace RangeText

/-- An integer is written so that it is read back. -/
theorem spellsEnd_signedNumeral (i : Int64) : SpellsEnd (signedNumeral i.toInt) (.int i) := by
  have text : signedNumeral i.toInt =
      minusSign (decide (i.toInt < 0)) ++ numeral i.toInt.natAbs := by
    rw [signedNumeral, minusSign]
    by_cases h : i.toInt < 0
    · simp [h]
    · simp [h]
  rw [text]
  refine .int (numeral_ne_nil _) (fun c hc => isDigit_of_mem_numeral hc) ?_
  rw [numeralValue_numeral, signedInt]
  by_cases h : i.toInt < 0
  · rw [if_pos (decide_eq_true h)]
    omega
  · rw [if_neg (by simpa using h)]
    omega

/-- A date is written so that it is read back. -/
theorem spellsEnd_toChars (d : Date) : SpellsEnd d.toChars (.day d) := by
  have month_le := d.month_le
  have day_le := d.day_le_of_month
  have text : d.toChars = dateText (paddedNumeral 4 d.year) (paddedNumeral 2 d.month)
      (paddedNumeral 2 d.day) := by
    rw [Date.toChars, dateText, List.append_assoc]
    rfl
  have short {n k : Nat} (hk : 0 < k) (hn : n < 10 ^ k) : (numeral n).length ≤ k :=
    (Nat.length_toDigits_le_iff (by omega) hk).mpr hn
  rw [text]
  refine .day ⟨?_, ?_, ?_, ?_⟩ ?_ ?_ ?_
  · exact length_paddedNumeral (short (by omega) (by have := d.year_lt; omega))
  · exact length_paddedNumeral (short (by omega) (by omega))
  · exact length_paddedNumeral (short (by omega) (by omega))
  · intro c hc
    rcases List.mem_append.mp hc with hc | hc
    · rcases List.mem_append.mp hc with hc | hc
      · exact isDigit_of_mem_paddedNumeral hc
      · exact isDigit_of_mem_paddedNumeral hc
    · exact isDigit_of_mem_paddedNumeral hc
  · exact (numeralValue_paddedNumeral 4 d.year).symm
  · exact (numeralValue_paddedNumeral 2 d.month).symm
  · exact (numeralValue_paddedNumeral 2 d.day).symm

def endText (e : Option Value) : List Char :=
  (e.elim "" Value.display).toList

/-- What is read where an end was written. -/
theorem exists_spellsEnd_endText {e : Option Value}
    (h : ∀ v ∈ e, (∃ i, v = .int i) ∨ ∃ d, v = .date d) :
    ∃ reading, SpellsEnd (endText e) reading ∧ reading.value? = some e := by
  cases e with
  | none => exact ⟨.missing, .missing, rfl⟩
  | some v =>
      rcases h v rfl with ⟨i, rfl⟩ | ⟨d, rfl⟩
      · refine ⟨.int i, ?_, rfl⟩
        have : endText (some (.int i)) = signedNumeral i.toInt := String.toList_ofList
        rw [this]
        exact spellsEnd_signedNumeral i
      · refine ⟨.day d, ?_, rfl⟩
        have : endText (some (.date d)) = d.toChars := String.toList_ofList
        rw [this]
        exact spellsEnd_toChars d

end RangeText

def ValueRange.write (m : Margins) (r : ValueRange) : String :=
  String.ofList
    (RangeText.write m ⟨r.includeLower, endText r.lower, endText r.upper, r.includeUpper⟩)

/-- **A range between integers or between dates is read back from its text**, whatever the brackets
and the margins. -/
theorem ValueMatch.classify_write (m : Margins) {r : ValueRange}
    (kind : (∀ e ∈ r.ends, ∃ i, e = .int i) ∨ ∀ e ∈ r.ends, ∃ d, e = .date d) :
    classify (.text (r.write m)) = .ok (.range r) := by
  have ends : ∀ e ∈ r.ends, (∃ i, e = Value.int i) ∨ ∃ d, e = Value.date d := by
    intro e he
    exact kind.imp (· e he) (· e he)
  obtain ⟨lower, hlower, lowerValue⟩ := exists_spellsEnd_endText (e := r.lower)
    fun v hv => ends v (ValueRange.mem_ends.mpr (Or.inl hv))
  obtain ⟨upper, hupper, upperValue⟩ := exists_spellsEnd_endText (e := r.upper)
    fun v hv => ends v (ValueRange.mem_ends.mpr (Or.inr hv))
  have spelled : SpellsRange (r.write m).toList ⟨r.includeLower, lower, upper, r.includeUpper⟩ := by
    rw [ValueRange.write, String.toList_ofList]
    exact .intro m r.includeLower r.includeUpper hlower hupper
  have alike : areMixed r.lower r.upper = false := by
    obtain ⟨l, u, includeLower, includeUpper⟩ := r
    cases l with
    | none => rfl
    | some l =>
        cases u with
        | none => rfl
        | some u =>
            rw [areMixed, bne_eq_false_iff_eq]
            rcases kind with ints | dates
            · obtain ⟨i, rfl⟩ := ints l (ValueRange.mem_ends.mpr (Or.inl rfl))
              obtain ⟨j, rfl⟩ := ints u (ValueRange.mem_ends.mpr (Or.inr rfl))
              rfl
            · obtain ⟨d, rfl⟩ := dates l (ValueRange.mem_ends.mpr (Or.inl rfl))
              obtain ⟨e, rfl⟩ := dates u (ValueRange.mem_ends.mpr (Or.inr rfl))
              rfl
  rw [classify_eq_range_iff spelled, RangeReading.result_of_values lowerValue upperValue, alike]
  rfl

namespace ValueMatch

/-- **Range texts are recognised and read exactly.**  A text is looked up as a range, successfully
or not, exactly when it is written as one.  Then a day that does not exist is an error, reported at
the lower end before the upper one; otherwise a number beside a date is an error; otherwise the text
is the range between what was read.  A range between integers or between dates is read back from its
text. -/
theorem classify_text_exact :
    (∀ s : String,
      (((∃ r, classify (.text s) = .ok (.range r)) ∨
          ∃ fault, classify (.text s) = .error fault) ↔
        ∃ reading, SpellsRange s.toList reading) ∧
      ∀ reading, SpellsRange s.toList reading →
        (∀ side bound text, classify (.text s) = .error (.invalidBound side bound text) ↔
          text = s ∧ reading.FirstNoDay side bound.toList) ∧
        (∀ text, classify (.text s) = .error (.mixedBounds text) ↔
          text = s ∧ reading.IsMixed) ∧
        ∀ r, classify (.text s) = .ok (.range r) ↔ ¬ reading.IsMixed ∧ reading.Means r) ∧
    ∀ (m : Margins) (r : ValueRange),
      ((∀ e ∈ r.ends, ∃ i, e = .int i) ∨ ∀ e ∈ r.ends, ∃ d, e = .date d) →
        classify (.text (r.write m)) = .ok (.range r) := by
  refine ⟨fun s => ⟨exists_range_or_error_iff, fun reading h => ⟨?_, ?_, ?_⟩⟩,
    fun m r => classify_write m⟩
  · intro side bound text
    rw [classify_eq_error_iff h, RangeReading.result_eq_invalidBound_iff]
  · intro text
    rw [classify_eq_error_iff h, RangeReading.result_eq_mixedBounds_iff]
  · intro r
    rw [classify_eq_range_iff h, RangeReading.result_eq_ok_iff]

/-- A day that only leap years have, in a year that is none, and the least integer between blanks. -/
theorem classify_text_exact_of_no_leap_day :
    let s := " [2021-02-29,\t7)"
    let reading : RangeReading := ⟨true, .noDay "2021-02-29".toList, .int 7, false⟩
    let m : Margins :=
      { before := oneBlank '\u3000' (by decide), beforeComma := oneBlank ' ' (by decide) }
    let r : ValueRange := ⟨some (.int Int64.minValue), none, false, true⟩
    SpellsRange s.toList reading ∧
      classify (.text s) = .error (.invalidBound .lower "2021-02-29" s) ∧
      ((∀ e ∈ r.ends, ∃ i, e = .int i) ∨ ∀ e ∈ r.ends, ∃ d, e = .date d) ∧
      r.write m = "\u3000(-9223372036854775808 ,]" ∧
      classify (.text (r.write m)) = .ok (.range r) := by
  intro s reading m r
  have noDay : SpellsEnd "2021-02-29".toList (.noDay "2021-02-29".toList) := by
    refine @SpellsEnd.noDay ['2', '0', '2', '1'] ['0', '2'] ['2', '9']
      ⟨rfl, rfl, rfl, List.all_eq_true.mp (by decide)⟩ ?_
    rintro d ⟨hyear, hmonth, hday⟩
    have := d.day_le
    rw [hyear, hmonth, hday] at this
    revert this
    decide
  have seven : SpellsEnd ['7'] (.int 7) :=
    @SpellsEnd.int false ['7'] 7 (List.cons_ne_nil _ _) (List.all_eq_true.mp (by decide)) (by decide)
  have spelled : SpellsRange s.toList reading := by
    have text : s.toList =
        write { before := oneBlank ' ' (by decide), afterComma := oneBlank '\t' (by decide) }
          ⟨true, "2021-02-29".toList, ['7'], false⟩ := by decide
    rw [text]
    exact .intro _ true false noDay seven
  have ints : ∀ e ∈ r.ends, ∃ i, e = .int i := by
    intro e he
    exact ⟨_, List.mem_singleton.mp he⟩
  obtain ⟨texts, readBack⟩ := classify_text_exact
  obtain ⟨noDayReported, -, -⟩ := (texts s).2 reading spelled
  exact ⟨spelled, (noDayReported _ _ _).mpr ⟨rfl, rfl⟩, Or.inl ints, by decide,
    readBack m r (Or.inl ints)⟩

end ValueMatch
end FacetQuery
