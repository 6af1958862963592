import FacetQuery.Pattern.Match
import FacetQuery.Proofs.Pattern.EndText
import FacetQuery.Proofs.Pattern.Ends
import FacetQuery.Proofs.Text.Margins

/-!
# Which texts are ranges, and which range a text is

A range is written as an opening bracket, an end, a comma, an end and a closing bracket, with blanks
in six places (`RangeText.write`).  The reader cuts a text at its first comma and trims what it has
cut; `RangeText.ofText?_eq_some_iff` says that it takes a text apart exactly when the text is
written in this way.
-/

namespace FacetQuery

namespace RangeText

open Text

/-! ### The form of a range -/

/-- The blanks in the six places of a range where there may be any. -/
structure Margins where
  before : Blanks := noBlanks
  afterOpening : Blanks := noBlanks
  beforeComma : Blanks := noBlanks
  afterComma : Blanks := noBlanks
  beforeClosing : Blanks := noBlanks
  after : Blanks := noBlanks

def openingSign (includeLower : Bool) : Char :=
  if includeLower then '[' else '('

def closingSign (includeUpper : Bool) : Char :=
  if includeUpper then ']' else ')'

def writeEnds (m : Margins) (lower upper : List Char) : List Char :=
  m.afterOpening.1 ++ (lower ++ m.beforeComma.1) ++
    ',' :: (m.afterComma.1 ++ (upper ++ m.beforeClosing.1))

/-- **How a range is written.** -/
def write (m : Margins) (parts : RangeText) : List Char :=
  m.before.1 ++ (openingSign parts.includeLower ::
    (writeEnds m parts.lower parts.upper ++ [closingSign parts.includeUpper]) ++ m.after.1)

theorem opening?_eq_some_iff {c : Char} {b : Bool} :
    opening? c = some b ↔ c = openingSign b := by
  constructor
  · intro h
    rw [opening?.eq_def] at h
    split at h
    · cases h
      rfl
    · cases h
      rfl
    · cases h
  · rintro rfl
    cases b <;> rfl

theorem closing?_eq_some_iff {c : Char} {b : Bool} :
    closing? c = some b ↔ c = closingSign b := by
  constructor
  · intro h
    rw [closing?.eq_def] at h
    split at h
    · cases h
      rfl
    · cases h
      rfl
    · cases h
  · rintro rfl
    cases b <;> rfl

variable {cs lower upper : List Char} {parts : RangeText} {m : Margins}

theorem isBlank_eq_false_of_isBound (h : isBound cs = true) {c : Char} (hc : c ∈ cs) :
    isBlank c = false := by
  obtain ⟨e, he⟩ := isBound_iff.mp h
  exact (he.charOfEnd hc).isBlank_eq_false

/-- Trimming takes the blanks around an end away. -/
theorem trim_isBound (h : isBound cs = true) (before after : Blanks) :
    trim (before.1 ++ (cs ++ after.1)) = cs := by
  refine trim_append before after (fun c hc => ?_) fun c hc => ?_
  · exact isBlank_eq_false_of_isBound h (List.mem_of_head? hc)
  · exact isBlank_eq_false_of_isBound h (List.mem_of_getLast? hc)

/-- There is no comma before the one between the ends. -/
theorem ne_comma_of_isBound (h : isBound cs = true) (before after : Blanks) :
    ∀ c ∈ before.1 ++ (cs ++ after.1), (c != ',') = true := by
  have blank {c : Char} (hc : isBlank c = true) : c ≠ ',' := by
    rintro rfl
    cases hc
  intro c hc
  rw [bne_iff_ne]
  rcases List.mem_append.mp hc with hc | hc
  · exact blank (before.2 c hc)
  · rcases List.mem_append.mp hc with hc | hc
    · obtain ⟨e, he⟩ := isBound_iff.mp h
      exact (he.charOfEnd hc).ne_comma
    · exact blank (after.2 c hc)

private theorem cut_comma {before : List Char} (h : ∀ c ∈ before, (c != ',') = true)
    (rest : List Char) :
    (before ++ ',' :: rest).takeWhile (· != ',') = before ∧
      (before ++ ',' :: rest).dropWhile (· != ',') = ',' :: rest := by
  rw [List.takeWhile_append_of_pos h, List.dropWhile_append_of_pos h,
    List.takeWhile_cons_of_neg (by simp), List.dropWhile_cons_of_neg (by simp), List.append_nil]
  exact ⟨rfl, rfl⟩

/-- **What stands between the brackets** is cut at the first comma, because there is none in an
end. -/
theorem ends?_eq_some_iff :
    ends? cs = some (lower, upper) ↔ isBound lower = true ∧ isBound upper = true ∧
      ∃ m, cs = writeEnds m lower upper := by
  constructor
  · intro h
    rw [ends?] at h
    have split := List.takeWhile_append_dropWhile (p := (· != ',')) (l := cs)
    obtain ⟨afterOpening, beforeComma, hlower⟩ := exists_margins (cs.takeWhile (· != ','))
    dsimp only at h
    split at h
    · rename_i rest hrest
      obtain ⟨afterComma, beforeClosing, hupper⟩ := exists_margins rest
      split at h
      · rename_i hbounds
        obtain ⟨rfl, rfl⟩ := Prod.mk.inj (Option.some.inj h)
        rw [Bool.and_eq_true] at hbounds
        refine ⟨hbounds.1, hbounds.2,
          { afterOpening, beforeComma, afterComma, beforeClosing }, ?_⟩
        rw [writeEnds, ← hlower, ← hupper, ← hrest]
        exact split.symm
      · cases h
    · cases h
  · rintro ⟨hlower, hupper, m, rfl⟩
    obtain ⟨htake, hdrop⟩ := cut_comma (ne_comma_of_isBound hlower m.afterOpening m.beforeComma)
      (m.afterComma.1 ++ (upper ++ m.beforeClosing.1))
    rw [ends?, writeEnds, htake, hdrop, trim_isBound hlower]
    simp only [trim_isBound hupper, hlower, hupper, Bool.and_self, if_true]

theorem isBlank_openingSign (b : Bool) : isBlank (openingSign b) = false := by
  cases b <;> rfl

theorem isBlank_closingSign (b : Bool) : isBlank (closingSign b) = false := by
  cases b <;> rfl

/-- **The form of a range**: a text is taken apart exactly when it is written as one. -/
theorem ofText?_eq_some_iff :
    ofText? cs = some parts ↔ isBound parts.lower = true ∧ isBound parts.upper = true ∧
      ∃ m, cs = write m parts := by
  constructor
  · intro h
    obtain ⟨before, after, hcs⟩ := exists_margins cs
    rw [ofText?] at h
    split at h
    · cases h
    · rename_i first rest htrim
      simp only [Option.bind_eq_bind, Option.bind_eq_some_iff, opening?_eq_some_iff,
        closing?_eq_some_iff] at h
      obtain ⟨includeLower, rfl, last, hlast, includeUpper, rfl, ⟨lower, upper⟩, hends, hparts⟩ := h
      obtain rfl := Option.some.inj hparts
      obtain ⟨hlower, hupper, m, hinside⟩ := ends?_eq_some_iff.mp hends
      refine ⟨hlower, hupper, { m with before, after }, ?_⟩
      -- The margins outside come from the trimmed text, those inside from between the brackets.
      have hrest : rest = writeEnds m lower upper ++ [closingSign includeUpper] := by
        rw [← hinside]
        exact (List.dropLast_append_getLast? _ hlast).symm
      rw [hcs, htrim, hrest]
      rfl
  · rintro ⟨hlower, hupper, m, rfl⟩
    have htrim : trim (write m parts) = openingSign parts.includeLower ::
        (writeEnds m parts.lower parts.upper ++ [closingSign parts.includeUpper]) := by
      refine trim_append m.before m.after (fun c hc => ?_) fun c hc => ?_
      · cases hc
        exact isBlank_openingSign _
      · rw [← List.cons_append, List.getLast?_concat] at hc
        cases hc
        exact isBlank_closingSign _
    rw [ofText?, htrim]
    simp only [Option.bind_eq_bind, opening?_eq_some_iff.mpr rfl, List.getLast?_concat,
      closing?_eq_some_iff.mpr rfl, List.dropLast_concat, Option.bind_some,
      ends?_eq_some_iff.mpr ⟨hlower, hupper, m, rfl⟩]

end RangeText
end FacetQuery
