import Mathlib.Data.List.TakeWhile
import FacetQuery.Pattern.RangeText
import FacetQuery.Proofs.Formula.Lexing

/-!
# How an end of a range is written

An end is nothing, a number, or four, two and two digits with hyphens between them.  `SpellsEnd` is
this grammar together with what is read: the integer or the double that a number is, the date, or
the fact that there is no such day.

The reader asks twice.  It looks whether a text may stand in the place of an end, and when it comes
to the value it looks whether the text is a number, so everything else had better be a date.
`isBound_iff` and `boundValue_of_spellsEnd` say that both answers are those of the grammar.  A date
begins with digits and goes on with a hyphen, where a number has a point or ends
(`isNumber_dateText`): no text is both, and the order of the questions does not matter.
-/

namespace FacetQuery

/-- The date with given parts is the only one with these parts. -/
theorem Date.ofParts?_eq_some_iff {year month day : Nat} {d : Date} :
    Date.ofParts? year month day = some d ↔ d.year = year ∧ d.month = month ∧ d.day = day := by
  rw [Date.ofParts?]
  split
  · rename_i h
    obtain ⟨y, m, n, _, _, _⟩ := d
    simp only [Option.some.injEq, Date.mk.injEq, eq_comm]
  · rename_i h
    refine iff_of_false (Option.some_ne_none d).symm ?_
    rintro ⟨rfl, rfl, rfl⟩
    exact h ⟨d.year_lt, d.day_pos, d.day_le⟩

namespace RangeText

open Text

/-! ### The grammar of ends -/

def minusSign (negative : Bool) : List Char :=
  if negative then ['-'] else []

/-- A year of four digits, a month of two and a day of two. -/
structure DateForm (year month day : List Char) : Prop where
  year_length : year.length = 4
  month_length : month.length = 2
  day_length : day.length = 2
  allDigits : ∀ c ∈ year ++ month ++ day, c.isDigit = true

def dateText (year month day : List Char) : List Char :=
  year ++ '-' :: (month ++ '-' :: day)

inductive EndReading where
  | missing
  | int (i : Int64)
  | double (x : Binary64)
  | day (d : Date)
  /-- A text of the form of a date, of a day that does not exist. -/
  | noDay (text : List Char)

def signedInt (negative : Bool) (n : Nat) : Int :=
  if negative then -(n : Int) else n

/-- **How an end is written**, and what is read there.  A number without a point is an integer if
there is a signed word of 64 bits for it, and every other number is the nearest double. -/
inductive SpellsEnd : List Char → EndReading → Prop where
  | missing : SpellsEnd [] .missing
  | int {negative : Bool} {digits : List Char} {i : Int64} (nonempty : digits ≠ [])
      (allDigits : ∀ c ∈ digits, c.isDigit = true)
      (same : i.toInt = signedInt negative (numeralValue digits)) :
      SpellsEnd (minusSign negative ++ digits) (.int i)
  | large {negative : Bool} {digits : List Char} (nonempty : digits ≠ [])
      (allDigits : ∀ c ∈ digits, c.isDigit = true)
      (noWord : ∀ i : Int64, i.toInt ≠ signedInt negative (numeralValue digits)) :
      SpellsEnd (minusSign negative ++ digits)
        (.double (.ofDecimal negative (numeralValue digits) 0))
  | decimal {negative : Bool} {whole fraction : List Char}
      (wholeDigits : ∀ c ∈ whole, c.isDigit = true) (nonempty : fraction ≠ [])
      (fractionDigits : ∀ c ∈ fraction, c.isDigit = true) :
      SpellsEnd (minusSign negative ++ (whole ++ '.' :: fraction))
        (.double (.ofDecimal negative (numeralValue (whole ++ fraction))
          (-(fraction.length : Int))))
  | day {year month day : List Char} {d : Date} (form : DateForm year month day)
      (hyear : d.year = numeralValue year) (hmonth : d.month = numeralValue month)
      (hday : d.day = numeralValue day) : SpellsEnd (dateText year month day) (.day d)
  | noDay {year month day : List Char} (form : DateForm year month day)
      (none : ∀ d : Date, ¬ (d.year = numeralValue year ∧ d.month = numeralValue month ∧
        d.day = numeralValue day)) :
      SpellsEnd (dateText year month day) (.noDay (dateText year month day))

/-- Only digits, hyphens and points occur in an end. -/
def CharOfEnd (c : Char) : Prop :=
  c.isDigit = true ∨ c = '-' ∨ c = '.'

theorem CharOfEnd.isBlank_eq_false {c : Char} (h : CharOfEnd c) : Text.isBlank c = false := by
  rcases h with h | rfl | rfl
  · exact Formula.isBlank_eq_false_of_isDigit h
  · rfl
  · rfl

theorem CharOfEnd.ne_comma {c : Char} (h : CharOfEnd c) : c ≠ ',' := by
  rcases h with h | rfl | rfl
  · rintro rfl
    cases h
  · decide
  · decide

private theorem charOfEnd_minusSign {negative : Bool} {c : Char} (hc : c ∈ minusSign negative) :
    CharOfEnd c := by
  cases negative with
  | false => exact absurd hc List.not_mem_nil
  | true => exact Or.inr (Or.inl (List.mem_singleton.mp hc))

private theorem charOfEnd_dateText {year month day : List Char} (form : DateForm year month day)
    {c : Char} (hc : c ∈ dateText year month day) : CharOfEnd c := by
  have digit := form.allDigits c
  simp only [dateText, List.mem_append, List.mem_cons] at hc digit
  rcases hc with hc | rfl | hc | rfl | hc
  · exact Or.inl (digit (Or.inl (Or.inl hc)))
  · exact Or.inr (Or.inl rfl)
  · exact Or.inl (digit (Or.inl (Or.inr hc)))
  · exact Or.inr (Or.inl rfl)
  · exact Or.inl (digit (Or.inr hc))

/-- **No blank, comma or bracket occurs in an end.** -/
theorem SpellsEnd.charOfEnd {cs : List Char} {e : EndReading} (h : SpellsEnd cs e) {c : Char}
    (hc : c ∈ cs) : CharOfEnd c := by
  cases h with
  | missing => exact absurd hc List.not_mem_nil
  | int _ allDigits _ =>
      rcases List.mem_append.mp hc with hc | hc
      · exact charOfEnd_minusSign hc
      · exact Or.inl (allDigits c hc)
  | large _ allDigits _ =>
      rcases List.mem_append.mp hc with hc | hc
      · exact charOfEnd_minusSign hc
      · exact Or.inl (allDigits c hc)
  | decimal wholeDigits _ fractionDigits =>
      rcases List.mem_append.mp hc with hc | hc
      · exact charOfEnd_minusSign hc
      · rcases List.mem_append.mp hc with hc | hc
        · exact Or.inl (wholeDigits c hc)
        · rcases List.mem_cons.mp hc with rfl | hc
          · exact Or.inr (Or.inr rfl)
          · exact Or.inl (fractionDigits c hc)
  | day form _ _ _ => exact charOfEnd_dateText form hc
  | noDay form _ => exact charOfEnd_dateText form hc

/-! ### Reading dates -/

namespace DateForm

variable {year month day : List Char}

private theorem exists_characters (h : DateForm year month day) :
    ∃ y₁ y₂ y₃ y₄ m₁ m₂ d₁ d₂, year = [y₁, y₂, y₃, y₄] ∧ month = [m₁, m₂] ∧ day = [d₁, d₂] := by
  have four {cs : List Char} (h : cs.length = 4) : ∃ a b c d, cs = [a, b, c, d] :=
    match cs, h with
    | [a, b, c, d], _ => ⟨a, b, c, d, rfl⟩
  obtain ⟨y₁, y₂, y₃, y₄, hyear⟩ := four h.year_length
  obtain ⟨m₁, m₂, hmonth⟩ := List.length_eq_two.mp h.month_length
  obtain ⟨d₁, d₂, hday⟩ := List.length_eq_two.mp h.day_length
  exact ⟨y₁, y₂, y₃, y₄, m₁, m₂, d₁, d₂, hyear, hmonth, hday⟩

theorem isShape (h : DateForm year month day) : Date.isShape (dateText year month day) = true := by
  obtain ⟨y₁, y₂, y₃, y₄, m₁, m₂, d₁, d₂, rfl, rfl, rfl⟩ := h.exists_characters
  have digits := List.all_eq_true.mpr h.allDigits
  change (List.all [y₁, y₂, y₃, y₄, m₁, m₂, d₁, d₂] Char.isDigit && true && true) = true
  rw [Bool.and_true, Bool.and_true]
  exact digits

/-- **A text of the form of a date** is read as the date with these parts, if there is one. -/
theorem read? (h : DateForm year month day) :
    Date.read? (dateText year month day) =
      Date.ofParts? (numeralValue year) (numeralValue month) (numeralValue day) := by
  rw [Date.read?, if_pos h.isShape]
  obtain ⟨y₁, y₂, y₃, y₄, m₁, m₂, d₁, d₂, rfl, rfl, rfl⟩ := h.exists_characters
  rfl

end DateForm

theorem exists_dateForm {cs : List Char} (h : Date.isShape cs = true) :
    ∃ year month day, DateForm year month day ∧ cs = dateText year month day := by
  rw [Date.isShape.eq_def] at h
  split at h
  · rename_i y₁ y₂ y₃ y₄ h₁ m₁ m₂ h₂ d₁ d₂
    simp only [Bool.and_eq_true, beq_iff_eq, List.all_eq_true] at h
    obtain ⟨⟨digits, rfl⟩, rfl⟩ := h
    exact ⟨[y₁, y₂, y₃, y₄], [m₁, m₂], [d₁, d₂], ⟨rfl, rfl, rfl, digits⟩, rfl⟩
  · cases h

/-! ### Reading numbers -/

/-- A text without a minus sign in front of it, and whether there was one. -/
def splitSign : List Char → Bool × List Char
  | '-' :: rest => (true, rest)
  | cs => (false, cs)

theorem splitSign_eq {cs : List Char} (unsigned : ∀ rest, cs = '-' :: rest → False) :
    splitSign cs = (false, cs) := by
  rw [splitSign.eq_def]
  split
  · exact absurd rfl (unsigned _)
  · rfl

theorem minusSign_append_splitSign (cs : List Char) :
    minusSign (splitSign cs).1 ++ (splitSign cs).2 = cs := by
  rw [splitSign.eq_def]
  split <;> rfl

theorem splitSign_minusSign_append {negative : Bool} {cs : List Char}
    (unsigned : cs.head? ≠ some '-') : splitSign (minusSign negative ++ cs) = (negative, cs) := by
  cases negative with
  | true => rfl
  | false =>
      refine splitSign_eq fun rest h => unsigned ?_
      rw [minusSign, if_neg Bool.false_ne_true, List.nil_append] at h
      rw [h, List.head?_cons]

/-- Digits, or digits with a point among them and at least one digit behind it. -/
inductive Unsigned : List Char → Prop where
  | whole {digits : List Char} (nonempty : digits ≠ [])
      (allDigits : ∀ c ∈ digits, c.isDigit = true) : Unsigned digits
  | decimal {whole fraction : List Char} (wholeDigits : ∀ c ∈ whole, c.isDigit = true)
      (nonempty : fraction ≠ []) (fractionDigits : ∀ c ∈ fraction, c.isDigit = true) :
      Unsigned (whole ++ '.' :: fraction)

/-- A number begins with a digit or a point. -/
theorem Unsigned.head?_ne {cs : List Char} (h : Unsigned cs) : cs.head? ≠ some '-' := by
  cases h with
  | whole nonempty allDigits =>
      intro hhead
      cases allDigits '-' (List.mem_of_head? hhead)
  | @decimal whole fraction wholeDigits _ _ =>
      intro hhead
      cases whole with
      | nil => cases hhead
      | cons c whole =>
          obtain rfl := Option.some.inj hhead
          cases wholeDigits '-' List.mem_cons_self

private theorem span_digits {digits rest : List Char} (allDigits : ∀ c ∈ digits, c.isDigit = true)
    (ends : Formula.EndsNumeral rest) :
    (digits ++ rest).takeWhile Char.isDigit = digits ∧
      (digits ++ rest).dropWhile Char.isDigit = rest := by
  rw [List.takeWhile_append_of_pos allDigits, List.dropWhile_append_of_pos allDigits]
  cases rest with
  | nil => simp
  | cons c rest =>
      have hc := Formula.endsNumeral_cons.mp ends
      simp [hc]

/-- What is asked of the text behind the sign of a number. -/
def isUnsigned (digits : List Char) : Bool :=
  match digits.dropWhile Char.isDigit with
  | [] => !digits.isEmpty
  | '.' :: fraction => !fraction.isEmpty && fraction.all Char.isDigit
  | _ => false

theorem isNumber_eq (cs : List Char) : isNumber cs = isUnsigned (splitSign cs).2 := by
  rw [isNumber.eq_def]
  split
  · exact rfl
  · rename_i unsigned
    exact (congrArg (fun p => isUnsigned p.2) (splitSign_eq unsigned)).symm

theorem numberValue_eq (cs : List Char) :
    numberValue cs =
      let digits := (splitSign cs).2
      let fraction := (digits.dropWhile Char.isDigit).drop 1
      let coefficient := numeralValue (digits.takeWhile Char.isDigit ++ fraction)
      let double := Binary64.ofDecimal (splitSign cs).1 coefficient (-(fraction.length : Int))
      if cs.contains '.' then .float double
      else ((int64? (signedInt (splitSign cs).1 coefficient)).map .int).getD (.float double) := by
  by_cases h : ∃ rest, cs = '-' :: rest
  · obtain ⟨rest, rfl⟩ := h
    rfl
  · have unsigned : ∀ rest, cs = '-' :: rest → False := fun rest hrest => h ⟨rest, hrest⟩
    rw [numberValue.eq_def, splitSign_eq unsigned]
    split
    · rename_i hsplit
      split at hsplit
      · exact absurd rfl (unsigned _)
      · cases hsplit
        rfl

/-- **The form of a number.** -/
theorem isNumber_iff {cs : List Char} : isNumber cs = true ↔ Unsigned (splitSign cs).2 := by
  rw [isNumber_eq]
  generalize (splitSign cs).2 = digits
  rw [isUnsigned]
  constructor
  · intro h
    have split := List.takeWhile_append_dropWhile (p := Char.isDigit) (l := digits)
    have leading : ∀ c ∈ digits.takeWhile Char.isDigit, c.isDigit = true :=
      fun c hc => List.mem_takeWhile_imp hc
    split at h
    · rename_i hrest
      rw [hrest, List.append_nil] at split
      rw [split] at leading
      exact .whole (by simpa using h) leading
    · rename_i fraction hrest
      simp only [Bool.and_eq_true, List.all_eq_true, Bool.not_eq_true', List.isEmpty_eq_false_iff]
        at h
      rw [← split, hrest]
      exact .decimal leading h.1 h.2
    · cases h
  · intro h
    cases h with
    | whole nonempty allDigits =>
        have := (span_digits allDigits Formula.endsNumeral_nil).2
        rw [List.append_nil] at this
        rw [this]
        simpa using nonempty
    | decimal wholeDigits nonempty fractionDigits =>
        rw [(span_digits wholeDigits (Formula.endsNumeral_cons.mpr rfl)).2]
        simpa using ⟨nonempty, fractionDigits⟩

theorem isNumber_whole {negative : Bool} {digits : List Char} (nonempty : digits ≠ [])
    (allDigits : ∀ c ∈ digits, c.isDigit = true) :
    isNumber (minusSign negative ++ digits) = true := by
  have unsigned := Unsigned.whole nonempty allDigits
  rwa [isNumber_iff, splitSign_minusSign_append unsigned.head?_ne]

theorem isNumber_decimal {negative : Bool} {whole fraction : List Char}
    (wholeDigits : ∀ c ∈ whole, c.isDigit = true) (nonempty : fraction ≠ [])
    (fractionDigits : ∀ c ∈ fraction, c.isDigit = true) :
    isNumber (minusSign negative ++ (whole ++ '.' :: fraction)) = true := by
  have unsigned := Unsigned.decimal wholeDigits nonempty fractionDigits
  rwa [isNumber_iff, splitSign_minusSign_append unsigned.head?_ne]

/-- A number without a point is an integer if it is one of 64 bits. -/
theorem numberValue_whole {negative : Bool} {digits : List Char} (nonempty : digits ≠ [])
    (allDigits : ∀ c ∈ digits, c.isDigit = true) :
    numberValue (minusSign negative ++ digits) =
      ((int64? (signedInt negative (numeralValue digits))).map .int).getD
        (.float (.ofDecimal negative (numeralValue digits) 0)) := by
  obtain ⟨htake, hdrop⟩ := span_digits allDigits Formula.endsNumeral_nil
  rw [List.append_nil] at htake hdrop
  have noPoint : (minusSign negative ++ digits).contains '.' = false := by
    rw [← Bool.not_eq_true, List.contains_iff_mem, List.mem_append, not_or]
    refine ⟨?_, fun h => ?_⟩
    · cases negative <;> decide
    · cases allDigits '.' h
  have unsigned := (Unsigned.whole nonempty allDigits).head?_ne
  simp only [numberValue_eq, splitSign_minusSign_append unsigned, htake, hdrop, noPoint,
    List.drop_nil, List.append_nil, List.length_nil, Int.natCast_zero, Int.neg_zero,
    Bool.false_eq_true, if_false]

/-- A number with a point is the nearest double. -/
theorem numberValue_decimal {negative : Bool} {whole fraction : List Char}
    (wholeDigits : ∀ c ∈ whole, c.isDigit = true) (nonempty : fraction ≠ [])
    (fractionDigits : ∀ c ∈ fraction, c.isDigit = true) :
    numberValue (minusSign negative ++ (whole ++ '.' :: fraction)) =
      .float (.ofDecimal negative (numeralValue (whole ++ fraction))
        (-(fraction.length : Int))) := by
  have ends : Formula.EndsNumeral ('.' :: fraction) := Formula.endsNumeral_cons.mpr rfl
  obtain ⟨htake, hdrop⟩ := span_digits wholeDigits ends
  have point : (minusSign negative ++ (whole ++ '.' :: fraction)).contains '.' = true :=
    List.contains_iff_mem.mpr (by simp)
  have unsigned := (Unsigned.decimal wholeDigits nonempty fractionDigits).head?_ne
  simp only [numberValue_eq, splitSign_minusSign_append unsigned, htake, hdrop, point,
    List.drop_succ_cons, List.drop_zero, if_true]

/-- A text of the form of a number spells one. -/
theorem exists_spellsEnd_of_isNumber {cs : List Char} (h : isNumber cs = true) :
    ∃ e, SpellsEnd cs e := by
  have unsigned := isNumber_iff.mp h
  rw [← minusSign_append_splitSign cs]
  generalize (splitSign cs).1 = negative at unsigned ⊢
  generalize (splitSign cs).2 = digits at unsigned ⊢
  cases unsigned with
  | whole nonempty allDigits =>
      cases hword : int64? (signedInt negative (numeralValue digits)) with
      | some i => exact ⟨_, .int nonempty allDigits (int64?_eq_some_iff.mp hword)⟩
      | none =>
          refine ⟨_, .large nonempty allDigits fun i hi => ?_⟩
          rw [int64?_eq_some_iff.mpr hi] at hword
          cases hword
  | decimal wholeDigits nonempty fractionDigits =>
      exact ⟨_, .decimal wholeDigits nonempty fractionDigits⟩

/-- A text of the form of a date spells one, or a day that does not exist. -/
theorem exists_spellsEnd_of_isShape {cs : List Char} (h : Date.isShape cs = true) :
    ∃ e, SpellsEnd cs e := by
  obtain ⟨year, month, day, form, rfl⟩ := exists_dateForm h
  by_cases some : ∃ d : Date, d.year = numeralValue year ∧ d.month = numeralValue month ∧
      d.day = numeralValue day
  · obtain ⟨d, hyear, hmonth, hday⟩ := some
    exact ⟨_, .day form hyear hmonth hday⟩
  · exact ⟨_, .noDay form fun d hd => some ⟨d, hd⟩⟩

/-! ### Reading ends -/

/-- What reading an end results in. -/
def EndReading.result (text : String) (side : RangeSide) :
    EndReading → Except RangeError (Option Value)
  | missing => .ok none
  | int i => .ok (some (.int i))
  | double x => .ok (some (.float x))
  | day d => .ok (some (.date d))
  | noDay cs => .error (.invalidBound side (String.ofList cs) text)

theorem isEmpty_dateText {year month day : List Char} :
    (dateText year month day).isEmpty = false := by
  rw [dateText]
  simp

/-- A date is no number: it goes on with a hyphen where a number has a point or ends. -/
theorem isNumber_dateText {year month day : List Char} (form : DateForm year month day) :
    isNumber (dateText year month day) = false := by
  have yearDigits : ∀ c ∈ year, c.isDigit = true := fun c hc =>
    form.allDigits c (List.mem_append_left _ (List.mem_append_left _ hc))
  have ends : Formula.EndsNumeral ('-' :: (month ++ '-' :: day)) :=
    Formula.endsNumeral_cons.mpr rfl
  have unsigned : splitSign (dateText year month day) = (false, dateText year month day) := by
    refine splitSign_eq fun rest h => ?_
    cases year with
    | nil => cases form.year_length
    | cons c year =>
        obtain rfl : c = '-' := (List.cons.inj h).1
        cases yearDigits '-' List.mem_cons_self
  have rest := (span_digits yearDigits ends).2
  rw [isNumber_eq, unsigned]
  simp [isUnsigned, dateText, rest]

/-- **An end is read as it is spelled.** -/
theorem boundValue_of_spellsEnd {cs : List Char} {e : EndReading} (h : SpellsEnd cs e)
    (text : String) (side : RangeSide) : boundValue text side cs = e.result text side := by
  have ofNumber {cs : List Char} (hnumber : isNumber cs = true) :
      boundValue text side cs = .ok (some (numberValue cs)) := by
    cases cs with
    | nil => cases hnumber
    | cons c cs => rw [boundValue, if_neg (by simp), if_pos hnumber]
  cases h with
  | missing => rfl
  | int nonempty allDigits same =>
      rw [ofNumber (isNumber_whole nonempty allDigits), numberValue_whole nonempty allDigits,
        int64?_eq_some_iff.mpr same]
      rfl
  | @large negative digits nonempty allDigits noWord =>
      have hword : int64? (signedInt negative (numeralValue digits)) = none := by
        rw [Option.eq_none_iff_forall_ne_some]
        exact fun i hi => noWord i (int64?_eq_some_iff.mp hi)
      rw [ofNumber (isNumber_whole nonempty allDigits), numberValue_whole nonempty allDigits,
        hword]
      rfl
  | decimal wholeDigits nonempty fractionDigits =>
      rw [ofNumber (isNumber_decimal wholeDigits nonempty fractionDigits),
        numberValue_decimal wholeDigits nonempty fractionDigits]
      rfl
  | day form hyear hmonth hday =>
      rw [boundValue, isEmpty_dateText, isNumber_dateText form, form.read?,
        Date.ofParts?_eq_some_iff.mpr ⟨hyear, hmonth, hday⟩]
      rfl
  | @noDay year month day form none =>
      have hparts : Date.ofParts? (numeralValue year) (numeralValue month) (numeralValue day) =
          Option.none := by
        rw [Option.eq_none_iff_forall_ne_some]
        exact fun d hd => none d (Date.ofParts?_eq_some_iff.mp hd)
      rw [boundValue, isEmpty_dateText, isNumber_dateText form, form.read?, hparts]
      rfl

/-- **The form of an end.** -/
theorem isBound_iff {cs : List Char} : isBound cs = true ↔ ∃ e, SpellsEnd cs e := by
  rw [isBound, Bool.or_eq_true, Bool.or_eq_true, List.isEmpty_iff]
  constructor
  · rintro ((rfl | h) | h)
    · exact ⟨_, .missing⟩
    · exact exists_spellsEnd_of_isShape h
    · exact exists_spellsEnd_of_isNumber h
  · rintro ⟨e, h⟩
    cases h with
    | missing => exact Or.inl (Or.inl rfl)
    | int nonempty allDigits _ => exact Or.inr (isNumber_whole nonempty allDigits)
    | large nonempty allDigits _ => exact Or.inr (isNumber_whole nonempty allDigits)
    | decimal wholeDigits nonempty fractionDigits =>
        exact Or.inr (isNumber_decimal wholeDigits nonempty fractionDigits)
    | day form _ _ _ => exact Or.inl (Or.inr form.isShape)
    | noDay form _ => exact Or.inl (Or.inr form.isShape)

end RangeText
end FacetQuery
