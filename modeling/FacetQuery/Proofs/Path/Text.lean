import FacetQuery.Proofs.Path.Formula
import FacetQuery.Proofs.Text.Margins

/-!
# The text of a path, read in two ways

The text of a path is read by the reader of paths, which splits it at the signs and trims the
parts, and by the reader of formulas, which scans it into tokens.  To the first it gives back the
literals of the path, in their order and with their repetitions (`Path.read_printed`); to the
second it is a conjunction without the parentheses around it (`Path.read_formula`).

For the reader of paths all depends on what a literal is written with: digits behind at most one
negation sign.  So nothing in the text is a blank, which trimming could take away, and the signs
between the literals are the only ones at which it is split.

### What is load-bearing

Variables have to be words, because no reader takes longer numerals.  A path may be empty for its
own reader, to which the empty text is the empty path; the empty text is no formula.
-/

namespace FacetQuery

open Text

/-! ### Numerals -/

/-- A numeral begins with a digit. -/
theorem Text.numeral_ne_cons {c : Char} (noDigit : c.isDigit = false) (n : Nat) (cs : List Char) :
    numeral n ≠ c :: cs := by
  intro h
  have hc : c ∈ numeral n := h ▸ List.mem_cons_self
  exact Bool.false_ne_true (noDigit.symm.trans (isDigit_of_mem_numeral hc))

theorem Text.readWord?_numeral {n : Nat} (isWord : n < UInt64.size) :
    readWord? (numeral n) = some n := by
  have read : readNumeral? (numeral n) = some n := by
    have allDigits : (numeral n).all Char.isDigit = true :=
      List.all_eq_true.mpr fun c hc => isDigit_of_mem_numeral hc
    rw [readNumeral?, allDigits, List.isEmpty_eq_false_iff.mpr (numeral_ne_nil n),
      numeralValue_numeral]
    rfl
  unfold readWord?
  split
  · next rest plus => exact absurd plus (numeral_ne_cons rfl n rest)
  · show (readNumeral? (numeral n)).filter (fun n => decide (n < UInt64.size)) = some n
    rw [read, Option.filter_some, if_pos (decide_eq_true isWord)]

/-! ### Literals -/

namespace Literal

/-- A literal is written with digits and the negation sign. -/
theorem eq_or_isDigit_of_mem_toChars {l : Literal} {c : Char} (hc : c ∈ l.toChars) :
    c = '!' ∨ c.isDigit = true := by
  rw [toChars] at hc
  split at hc
  · exact (List.mem_cons.mp hc).imp_right isDigit_of_mem_numeral
  · exact Or.inr (isDigit_of_mem_numeral hc)

theorem isBlank_eq_false_of_mem_toChars {l : Literal} {c : Char} (hc : c ∈ l.toChars) :
    isBlank c = false := by
  rcases eq_or_isDigit_of_mem_toChars hc with rfl | isDigit
  · rfl
  · exact Formula.isBlank_eq_false_of_isDigit isDigit

theorem sign_not_mem_toChars (l : Literal) : '&' ∉ l.toChars := by
  intro h
  rcases eq_or_isDigit_of_mem_toChars h with h | h
  · exact absurd h (by decide)
  · cases h

theorem toChars_ne_nil (l : Literal) : l.toChars ≠ [] := by
  rw [toChars]
  split
  · exact List.cons_ne_nil _ _
  · exact numeral_ne_nil l.var

theorem read?_toChars {l : Literal} (isWord : l.var < UInt64.size) :
    read? l.toChars = some l := by
  have visible : trim l.toChars = l.toChars :=
    trim_of_visible fun c hc => isBlank_eq_false_of_mem_toChars hc
  obtain ⟨v, negated⟩ := l
  rw [read?, visible, toChars]
  cases negated with
  | true =>
      have digits : trim (numeral v) = numeral v :=
        trim_of_visible fun c hc => Formula.isBlank_eq_false_of_isDigit (isDigit_of_mem_numeral hc)
      simp [digits, readWord?_numeral isWord]
  | false =>
      simp only [Bool.false_eq_true, if_false]
      split
      · next rest negation => exact absurd negation (numeral_ne_cons rfl v rest)
      · rw [readWord?_numeral isWord, Option.map_some]

end Literal

namespace Path

/-! ### The reader of paths -/

theorem splitAtSigns_of_not_mem {part : List Char} (noSign : '&' ∉ part) :
    splitAtSigns part = [part] := by
  induction part with
  | nil => rfl
  | cons c part ih =>
      rw [List.mem_cons, not_or] at noSign
      rw [splitAtSigns, if_neg (Ne.symm noSign.1), ih noSign.2]

theorem splitAtSigns_append_sign {part : List Char} (noSign : '&' ∉ part) (rest : List Char) :
    splitAtSigns (part ++ '&' :: rest) = part :: splitAtSigns rest := by
  induction part with
  | nil => rfl
  | cons c part ih =>
      rw [List.mem_cons, not_or] at noSign
      rw [List.cons_append, splitAtSigns, if_neg (Ne.symm noSign.1), ih noSign.2]

/-- Splitting takes the signs between the literals away, and nothing else. -/
theorem splitAtSigns_toChars (l : Literal) (ls : List Literal) :
    splitAtSigns (l.toChars ++ behindText ls) = (l :: ls).map Literal.toChars := by
  induction ls generalizing l with
  | nil =>
      rw [behindText, List.append_nil, splitAtSigns_of_not_mem l.sign_not_mem_toChars]
      rfl
  | cons m ls ih =>
      rw [behindText, List.cons_append, splitAtSigns_append_sign l.sign_not_mem_toChars, ih m]
      rfl

theorem readLiterals?_map_toChars {ls : List Literal} (areWords : ∀ l ∈ ls, l.var < UInt64.size) :
    readLiterals? (ls.map Literal.toChars) = some ls := by
  induction ls with
  | nil => rfl
  | cons l ls ih =>
      have tail : List.mapM Literal.read? (ls.map Literal.toChars) = some ls :=
        ih fun m hm => areWords m (List.mem_cons_of_mem l hm)
      rw [readLiterals?, List.map_cons, List.mapM_cons, tail,
        Literal.read?_toChars (areWords l List.mem_cons_self)]
      rfl

theorem isBlank_eq_false_of_mem_behindText {ls : List Literal} {c : Char}
    (hc : c ∈ behindText ls) : isBlank c = false := by
  induction ls with
  | nil => cases hc
  | cons l ls ih =>
      rw [behindText, List.cons_append, List.mem_cons, List.mem_append] at hc
      rcases hc with rfl | hc | hc
      · rfl
      · exact Literal.isBlank_eq_false_of_mem_toChars hc
      · exact ih hc

theorem trim_toChars (p : Path) : trim p.toChars = p.toChars := by
  refine trim_of_visible fun c hc => ?_
  rw [toChars] at hc
  split at hc
  · cases hc
  · rcases List.mem_append.mp hc with hc | hc
    · exact Literal.isBlank_eq_false_of_mem_toChars hc
    · exact isBlank_eq_false_of_mem_behindText hc

/-- **The reader of paths gives back the path.** -/
theorem read_printed {p : Path} (areWords : ∀ l ∈ p.literals, l.var < UInt64.size) :
    read p.toText = .ok p := by
  rw [read, toText, String.toList_ofList, trim_toChars]
  obtain ⟨_ | ⟨l, ls⟩⟩ := p
  · rfl
  · have visible : (toChars ⟨l :: ls⟩).isEmpty = false := by
      rw [List.isEmpty_eq_false_iff, toChars]
      exact List.append_ne_nil_of_left_ne_nil l.toChars_ne_nil _
    have parts : readLiterals? (splitAtSigns (toChars ⟨l :: ls⟩)) = some (l :: ls) := by
      rw [toChars, splitAtSigns_toChars, readLiterals?_map_toChars areWords]
    simp only [visible, parts]
    rfl

/-! ### The reader of formulas -/

/-- The formula that the text of a path spells: the conjunction of its literals. -/
def expr (p : Path) : Expr :=
  QueryTree.expr p.tree

theorem vars_expr (p : Path) : p.expr.vars = p.literals.map Literal.var := by
  rw [expr, QueryTree.vars_expr, labels_tree]

theorem eval_expr (p : Path) (a : Assignment) : p.expr.eval a = p.holds a := by
  rw [expr, QueryTree.eval_expr, holds_tree]

/-- **To the reader of formulas the text of a path is a conjunction**, which needs no parentheses
where nothing stands around it. -/
theorem read_formula {p : Path} (nonempty : p.literals ≠ [])
    (areWords : ∀ l ∈ p.literals, l.var < UInt64.size) : Expr.read p.toText = .ok p.expr := by
  have labels : ∀ id ∈ p.tree.labels, id < UInt64.size := by
    intro id hid
    rw [labels_tree] at hid
    obtain ⟨l, hl, rfl⟩ := List.mem_map.mp hid
    exact areWords l hl
  have trees := hasNoEmptyList_tree nonempty
  rw [tree, Tree.labels] at labels
  rw [tree, Tree.hasNoEmptyList, Bool.and_eq_true, Bool.not_eq_true'] at trees
  have sign : Formula.Token.ofSign? '&' = some .and := rfl
  have written := QueryTree.written_joinedText sign _ labels Formula.endsNumeral_nil .nil
  rw [List.append_nil, List.append_nil, joinedText_map_tree] at written
  have read := Formula.ofText?_of_spells written
    (.term (QueryTree.spells_conjunction _ trees.1 trees.2))
  rw [Expr.read, toText, String.toList_ofList, read]
  rfl

/-! ### Both readers -/

/-- **The text of a path means the same to both readers.**  The reader of paths gives back the
literals of every path, the empty one included.  The reader of formulas takes the text of every
other path, and the formula that it reads has the variables of the literals, one by one, and holds
under an assignment of the variables exactly when the path does. -/
theorem read_toText {p : Path} (areWords : ∀ l ∈ p.literals, l.var < UInt64.size) :
    read p.toText = .ok p ∧
      (p.literals ≠ [] →
        ∃ e, Expr.read p.toText = .ok e ∧ e.vars = p.literals.map Literal.var ∧
          ∀ a : Assignment, e.eval a = p.holds a) :=
  ⟨read_printed areWords, fun nonempty =>
    ⟨p.expr, read_formula nonempty areWords, vars_expr p, eval_expr p⟩⟩

/-- A path that repeats a literal and contradicts itself. -/
theorem read_toText_of_contradiction :
    let p : Path := ⟨[⟨63, true⟩, ⟨0, false⟩, ⟨63, true⟩, ⟨63, false⟩]⟩
    (∀ l ∈ p.literals, l.var < UInt64.size) ∧ p.literals ≠ [] ∧ read p.toText = .ok p ∧
      ∃ e, Expr.read p.toText = .ok e ∧ e.vars = p.literals.map Literal.var ∧
        ∀ a : Assignment, e.eval a = p.holds a := by
  intro p
  have areWords : ∀ l ∈ p.literals, l.var < UInt64.size := by decide
  have nonempty : p.literals ≠ [] := by decide
  exact ⟨areWords, nonempty, (read_toText areWords).1, (read_toText areWords).2 nonempty⟩

end Path
end FacetQuery
