import Mathlib.Data.List.Basic
import FacetQuery.Formula.Token

/-!
# The lexical grammar of formulas

`Written tokens text` says how a text writes tokens: layout anywhere between tokens and at
both ends, one character for a sign, and for a variable a numeral of any number of digits,
of which the one that ends it is really the last one.  The relation knows nothing of the
scanner, which carries the value of an unfinished numeral along; the two agree on every text
(`written_of_tokens?`, `tokens?_of_written`).

### What is load-bearing

The clause for numerals asks that no digit follows.  Without it `12` would also write the
tokens `1` and `2`, and the scanner, which always takes all digits it can get, would be one
of several readings instead of the only one.
-/

namespace FacetQuery

namespace Text

/-- A numeral is read back as the number that it writes. -/
theorem numeralValue_numeral (n : Nat) : numeralValue (numeral n) = n :=
  Nat.ofDigitChars_ten_toDigits

theorem isDigit_of_mem_numeral {n : Nat} {c : Char} (h : c ∈ numeral n) : c.isDigit = true :=
  Nat.isDigit_of_mem_toDigits (by decide) (by decide) h

theorem numeral_ne_nil (n : Nat) : numeral n ≠ [] :=
  Nat.toDigits_ne_nil

end Text

namespace Formula

open Text

/-- No digit follows: the text is empty or begins with another character. -/
def EndsNumeral (cs : List Char) : Prop :=
  ∀ c ∈ cs.head?, c.isDigit = false

@[simp] theorem endsNumeral_nil : EndsNumeral [] := by
  intro c h
  simp at h

@[simp] theorem endsNumeral_cons {c : Char} {cs : List Char} :
    EndsNumeral (c :: cs) ↔ c.isDigit = false := by
  simp [EndsNumeral]

/-- **How a text writes tokens.** -/
inductive Written : List Token → List Char → Prop where
  | nil : Written [] []
  | layout {c : Char} {tokens : List Token} {cs : List Char} (h : isLayout c = true)
      (rest : Written tokens cs) : Written tokens (c :: cs)
  | sign {c : Char} {t : Token} {tokens : List Token} {cs : List Char}
      (h : Token.ofSign? c = some t) (rest : Written tokens cs) : Written (t :: tokens) (c :: cs)
  | numeral {digits : List Char} {tokens : List Token} {cs : List Char} (nonempty : digits ≠ [])
      (allDigits : ∀ c ∈ digits, c.isDigit = true) (isWord : numeralValue digits < UInt64.size)
      (ends : EndsNumeral cs) (rest : Written tokens cs) :
      Written (.var (numeralValue digits) :: tokens) (digits ++ cs)

/-- A variable is written by its numeral. -/
theorem written_numeral {v : Nat} (isWord : v < UInt64.size) {following : List Token}
    {cs : List Char} (ends : EndsNumeral cs) (rest : Written following cs) :
    Written (.var v :: following) (numeral v ++ cs) := by
  have written := Written.numeral (numeral_ne_nil v) (fun _ => isDigit_of_mem_numeral)
    (by rwa [numeralValue_numeral]) ends rest
  rwa [numeralValue_numeral] at written

/-! ### Classes of characters -/

theorem isDigit_eq_false_of_isLayout {c : Char} (h : isLayout c = true) : c.isDigit = false := by
  simp only [isLayout, Bool.or_eq_true, beq_iff_eq] at h
  rcases h with ((rfl | rfl) | rfl) | rfl <;> rfl

theorem eq_of_ofSign? {c : Char} {t : Token} (h : Token.ofSign? c = some t) :
    c = '!' ∨ c = '&' ∨ c = '|' ∨ c = '(' ∨ c = ')' := by
  unfold Token.ofSign? at h
  split at h
  · exact Or.inl rfl
  · exact Or.inr (Or.inl rfl)
  · exact Or.inr (Or.inr (Or.inl rfl))
  · exact Or.inr (Or.inr (Or.inr (Or.inl rfl)))
  · exact Or.inr (Or.inr (Or.inr (Or.inr rfl)))
  · cases h

theorem isDigit_eq_false_of_ofSign? {c : Char} {t : Token} (h : Token.ofSign? c = some t) :
    c.isDigit = false := by
  rcases eq_of_ofSign? h with rfl | rfl | rfl | rfl | rfl <;> rfl

theorem isLayout_eq_false_of_ofSign? {c : Char} {t : Token} (h : Token.ofSign? c = some t) :
    isLayout c = false := by
  rcases eq_of_ofSign? h with rfl | rfl | rfl | rfl | rfl <;> rfl

theorem isBlank_eq_false_of_isDigit {c : Char} (h : c.isDigit = true) : isBlank c = false := by
  have hrange : 48 ≤ c.toNat ∧ c.toNat ≤ 57 := by
    simp only [Char.isDigit, Bool.and_eq_true, decide_eq_true_eq] at h
    exact ⟨UInt32.le_iff_toNat_le.mp h.1, UInt32.le_iff_toNat_le.mp h.2⟩
  simp only [isBlank, Bool.or_eq_false_iff, Bool.and_eq_false_iff, beq_eq_false_iff_ne,
    decide_eq_false_iff_not]
  omega

theorem isBlank_eq_false_of_ofSign? {c : Char} {t : Token} (h : Token.ofSign? c = some t) :
    isBlank c = false := by
  rcases eq_of_ofSign? h with rfl | rfl | rfl | rfl | rfl <;> rfl

/-! ### The scanner, character class by character class -/

/-- A numeral that is pending ends where no digit follows. -/
theorem scan_eq_bind {cs : List Char} (ends : EndsNumeral cs) (pending : Option Nat) :
    scan pending cs = (scan none cs).bind (endNumeral pending) := by
  cases cs with
  | nil => simp [scan, endNumeral]
  | cons c rest =>
      rw [endsNumeral_cons] at ends
      -- Past a digit the scanner looks at what is pending only to put its token in front.
      simp only [scan, ends, Bool.false_eq_true, ↓reduceIte]
      cases scan none rest with
      | none => rfl
      | some tokens =>
          by_cases hlayout : isLayout c = true
          · simp [hlayout, endNumeral]
          · cases hsign : Token.ofSign? c with
            | none => simp [hlayout]
            | some t => simp [hlayout, endNumeral]

theorem scan_layout {c : Char} (h : isLayout c = true) (cs : List Char) :
    scan none (c :: cs) = scan none cs := by
  simp only [scan, isDigit_eq_false_of_isLayout h, h, Bool.false_eq_true, ↓reduceIte]
  cases scan none cs <;> rfl

theorem scan_sign {c : Char} {t : Token} (h : Token.ofSign? c = some t) (cs : List Char) :
    scan none (c :: cs) = (scan none cs).map (t :: ·) := by
  simp only [scan, isDigit_eq_false_of_ofSign? h, isLayout_eq_false_of_ofSign? h, h,
    Bool.false_eq_true, ↓reduceIte]
  cases scan none cs <;> rfl

/-- Digits extend the numeral that is pending. -/
theorem scan_append_digits {digits : List Char} (allDigits : ∀ c ∈ digits, c.isDigit = true)
    (value : Nat) (cs : List Char) :
    scan (some value) (digits ++ cs) =
      scan (some (digits.foldl (fun v c => 10 * v + digitValue c) value)) cs := by
  induction digits generalizing value with
  | nil => rfl
  | cons d digits ih =>
      obtain ⟨hd, hdigits⟩ := List.forall_mem_cons.mp allDigits
      rw [List.cons_append, scan, if_pos hd, ih hdigits]
      rfl

/-- A numeral is scanned as a whole. -/
theorem scan_numeral {digits cs : List Char} (nonempty : digits ≠ [])
    (allDigits : ∀ c ∈ digits, c.isDigit = true) (ends : EndsNumeral cs) :
    scan none (digits ++ cs) =
      (scan none cs).bind (endNumeral (some (numeralValue digits))) := by
  cases digits with
  | nil => exact absurd rfl nonempty
  | cons d digits =>
      obtain ⟨hd, hdigits⟩ := List.forall_mem_cons.mp allDigits
      rw [List.cons_append, scan, if_pos hd, scan_append_digits hdigits, scan_eq_bind ends]
      rfl

/-! ### Scanner and grammar agree -/

theorem tokens?_of_written {tokens : List Token} {cs : List Char} (h : Written tokens cs) :
    tokens? cs = some tokens := by
  unfold tokens?
  induction h with
  | nil => rfl
  | layout h _ ih => rw [scan_layout h, ih]
  | sign h _ ih => rw [scan_sign h, ih, Option.map_some]
  | numeral nonempty allDigits isWord ends _ ih =>
      rw [scan_numeral nonempty allDigits ends, ih, Option.bind_some, endNumeral, if_pos isWord]

/-- A text that does not begin with a digit is scanned only if its first character is layout
or a sign. -/
private theorem head_of_scan {c : Char} {cs : List Char} {tokens : List Token}
    (hc : c.isDigit = false) (h : scan none (c :: cs) = some tokens) :
    isLayout c = true ∨ ∃ t, Token.ofSign? c = some t := by
  by_cases hlayout : isLayout c = true
  · exact Or.inl hlayout
  · right
    simp only [scan, hc, hlayout, Bool.false_eq_true, ↓reduceIte] at h
    cases hsign : Token.ofSign? c with
    | some t => exact ⟨t, rfl⟩
    | none => cases hrest : scan none cs <;> simp [hrest, hsign] at h

/-- A text that begins with a digit begins with a numeral. -/
private theorem exists_numeral_append {c : Char} (hc : c.isDigit = true) (rest : List Char) :
    ∃ digits following, c :: rest = digits ++ following ∧ digits ≠ [] ∧
      (∀ d ∈ digits, d.isDigit = true) ∧ EndsNumeral following := by
  -- The longest run of digits is the only choice that leaves no digit behind it.
  refine ⟨(c :: rest).takeWhile Char.isDigit, (c :: rest).dropWhile Char.isDigit,
    List.takeWhile_append_dropWhile.symm, by simp [hc], ?_, ?_⟩
  · intro d hd
    exact List.all_eq_true.mp (List.all_takeWhile (p := Char.isDigit)) d hd
  · intro d hd
    have := List.head?_dropWhile_not Char.isDigit (c :: rest)
    rw [Option.mem_def] at hd
    rw [hd] at this
    exact this

theorem written_of_tokens? {tokens : List Token} {cs : List Char} (h : tokens? cs = some tokens) :
    Written tokens cs := by
  unfold tokens? at h
  -- The length of the text is what shrinks: a numeral is taken off as a whole.
  induction hn : cs.length using Nat.strongRecOn generalizing cs tokens with
  | ind n ih =>
    cases cs with
    | nil =>
        obtain rfl : [] = tokens := by simpa [scan, endNumeral] using h
        exact .nil
    | cons c rest =>
        cases hc : c.isDigit with
        | false =>
            rcases head_of_scan hc h with hlayout | ⟨t, hsign⟩
            · rw [scan_layout hlayout] at h
              exact .layout hlayout (ih rest.length (by simp [← hn]) h rfl)
            · rw [scan_sign hsign, Option.map_eq_some_iff] at h
              obtain ⟨tokens, hrest, rfl⟩ := h
              exact .sign hsign (ih rest.length (by simp [← hn]) hrest rfl)
        | true =>
            obtain ⟨digits, following, split, nonempty, allDigits, ends⟩ :=
              exists_numeral_append hc rest
            rw [split] at h hn ⊢
            rw [scan_numeral nonempty allDigits ends, Option.bind_eq_some_iff] at h
            obtain ⟨tokens', hrest, hend⟩ := h
            have shorter : following.length < n := by
              have := List.length_pos_of_ne_nil nonempty
              rw [List.length_append] at hn
              omega
            rw [endNumeral] at hend
            split at hend
            · rename_i isWord
              cases hend
              exact .numeral nonempty allDigits isWord ends (ih _ shorter hrest rfl)
            · cases hend

/-- A text of blanks writes nothing. -/
theorem Written.eq_nil_of_blank {tokens : List Token} {cs : List Char} (h : Written tokens cs)
    (blank : ∀ c ∈ cs, isBlank c = true) : tokens = [] := by
  induction h with
  | nil => rfl
  | layout _ _ ih => exact ih fun c hc => blank c (List.mem_cons_of_mem _ hc)
  | sign h _ _ =>
      have := blank _ List.mem_cons_self
      simp [isBlank_eq_false_of_ofSign? h] at this
  | numeral nonempty allDigits _ _ _ _ =>
      obtain ⟨d, hd⟩ := List.exists_mem_of_ne_nil _ nonempty
      have := blank d (List.mem_append_left _ hd)
      simp [isBlank_eq_false_of_isDigit (allDigits d hd)] at this

end Formula
end FacetQuery
