import Mathlib.Data.List.Chain
import FacetQuery.Proofs.Formula.Acceptance
import FacetQuery.Proofs.Formula.Meaning

/-!
# Printing formulas

A formula is printed with a sign between the members of a conjunction or a disjunction, with
parentheses around a member or a negated formula that is itself one of these, with any number of
further pairs of parentheses around factors, and with any layout between the tokens
(`Prints`, `Written`).  However it is printed, reading gives back exactly this formula.

The reader joins only two members or more, so a conjunction or a disjunction with fewer members
is no formula that it can find; apart from this every formula has a printing (`toText`).

### What is load-bearing

Printing and grammar describe the same tokens from two ends: the grammar goes by precedence,
printing by the formula.  A member is printed as a factor, because a factor stands unchanged
both among the factors of a term and as a term of its own (`Prints.spelled`).
-/

namespace FacetQuery

namespace Expr

mutual

/-- Whether every conjunction and every disjunction in a formula has two members or more. -/
def hasNoShortList : Expr → Bool
  | var _ => true
  | not e => hasNoShortList e
  | and es => decide (2 ≤ es.length) && haveNoShortList es
  | or es => decide (2 ≤ es.length) && haveNoShortList es

def haveNoShortList : List Expr → Bool
  | [] => true
  | e :: rest => hasNoShortList e && haveNoShortList rest

end

end Expr

namespace Formula

/-! ### How formulas are printed -/

inductive Printed where
  /-- A formula that stands alone, or between parentheses. -/
  | whole (e : Expr)
  /-- A formula that is negated, or a member of a list. -/
  | operand (e : Expr)
  /-- The members of a list, with a sign between them. -/
  | members (sign : Token) (es : List Expr)

/-- **How formulas are printed.**  An operand that is a conjunction or a disjunction can be printed
between parentheses only; all others may be. -/
inductive Prints : Printed → List Token → Prop where
  | and {es : List Expr} {tokens : List Token} (h : Prints (.members .and es) tokens) :
      Prints (.whole (.and es)) tokens
  | or {es : List Expr} {tokens : List Token} (h : Prints (.members .or es) tokens) :
      Prints (.whole (.or es)) tokens
  | single {e : Expr} {tokens : List Token} (h : Prints (.operand e) tokens) :
      Prints (.whole e) tokens
  | var (v : Nat) : Prints (.operand (.var v)) [.var v]
  | not {e : Expr} {tokens : List Token} (h : Prints (.operand e) tokens) :
      Prints (.operand (.not e)) (.not :: tokens)
  | parentheses {e : Expr} {tokens : List Token} (h : Prints (.whole e) tokens) :
      Prints (.operand e) (.opening :: tokens ++ [.closing])
  | last {sign : Token} {e : Expr} {tokens : List Token} (h : Prints (.operand e) tokens) :
      Prints (.members sign [e]) tokens
  | more {sign : Token} {e : Expr} {es : List Expr} {first rest : List Token}
      (h : Prints (.operand e) first) (others : Prints (.members sign es) rest) :
      Prints (.members sign (e :: es)) (first ++ sign :: rest)

theorem join_of_two_le {joined : List Expr → Expr} {es : List Expr} (h : 2 ≤ es.length) :
    join joined es = joined es := by
  match es with
  | _ :: _ :: _ => rfl

/-- What printed tokens spell: a formula that stands alone is spelled by terms, an operand is a
factor, and the members of a list are the factors of a term or the terms of a formula. -/
def Printed.Spelled : Printed → List Token → Prop
  | .whole e, tokens => e.hasNoShortList = true →
      ∃ es, Spells .terms tokens es ∧ join .or es = e
  | .operand e, tokens => e.hasNoShortList = true → Spells .factor tokens [e]
  | .members sign es, tokens => Expr.haveNoShortList es = true →
      (sign = .and → Spells .factors tokens es) ∧ (sign = .or → Spells .terms tokens es)

/-- **What is printed is spelled**, as long as no list is too short. -/
theorem Prints.spelled {printed : Printed} {tokens : List Token} (h : Prints printed tokens) :
    printed.Spelled tokens := by
  induction h with
  | @and es _ _ ih =>
      intro long
      rw [Expr.hasNoShortList, Bool.and_eq_true, decide_eq_true_eq] at long
      refine ⟨_, .term ((ih long.2).1 rfl), ?_⟩
      rw [join_of_two_le long.1]
      rfl
  | @or es _ _ ih =>
      intro long
      rw [Expr.hasNoShortList, Bool.and_eq_true, decide_eq_true_eq] at long
      exact ⟨es, (ih long.2).2 rfl, join_of_two_le long.1⟩
  | single _ ih =>
      intro long
      exact ⟨_, .term (.factor (ih long)), rfl⟩
  | var v => exact fun _ => .var v
  | not _ ih => exact fun long => .not (ih long)
  | parentheses _ ih =>
      intro long
      obtain ⟨es, spelled, rfl⟩ := ih long
      exact .group spelled
  | last _ ih =>
      intro long
      rw [Expr.haveNoShortList, Bool.and_eq_true] at long
      have spelled := Spells.factor (ih long.1)
      exact ⟨fun _ => spelled, fun _ => .term spelled⟩
  | more _ _ ih ihOthers =>
      intro long
      rw [Expr.haveNoShortList, Bool.and_eq_true] at long
      obtain ⟨factors, terms⟩ := ihOthers long.2
      refine ⟨?_, ?_⟩
      · rintro rfl
        exact .and (ih long.1) (factors rfl)
      · rintro rfl
        exact .or (.factor (ih long.1)) (terms rfl)

/-! ### A printing without layout -/

mutual

/-- The tokens of an operand, with no more parentheses than it needs. -/
def operandTokens : Expr → List Token
  | .var v => [.var v]
  | .not e => .not :: operandTokens e
  | .and es => .opening :: memberTokens .and es ++ [.closing]
  | .or es => .opening :: memberTokens .or es ++ [.closing]

/-- The tokens of the members of a list with a sign between them. -/
def memberTokens (sign : Token) : List Expr → List Token
  | [] => []
  | [e] => operandTokens e
  | e :: rest => operandTokens e ++ sign :: memberTokens sign rest

end

/-- The tokens of a formula, with no more parentheses than it needs. -/
def plainTokens : Expr → List Token
  | .and es => memberTokens .and es
  | .or es => memberTokens .or es
  | e => operandTokens e

def Token.chars : Token → List Char
  | .not => ['!']
  | .and => ['&']
  | .or => ['|']
  | .opening => ['(']
  | .closing => [')']
  | .var v => Text.numeral v

/-- The text of a formula, with no more parentheses than it needs and without layout. -/
def toText (e : Expr) : String :=
  String.ofList ((plainTokens e).flatMap Token.chars)

mutual

theorem prints_operandTokens :
    ∀ e : Expr, e.hasNoShortList = true → Prints (.operand e) (operandTokens e)
  | .var v, _ => .var v
  | .not e, long => .not (prints_operandTokens e long)
  | .and es, long => by
      rw [Expr.hasNoShortList, Bool.and_eq_true, decide_eq_true_eq] at long
      exact .parentheses (.and (prints_memberTokens .and es long.2 (by omega)))
  | .or es, long => by
      rw [Expr.hasNoShortList, Bool.and_eq_true, decide_eq_true_eq] at long
      exact .parentheses (.or (prints_memberTokens .or es long.2 (by omega)))

private theorem prints_memberTokens (sign : Token) :
    ∀ es : List Expr, Expr.haveNoShortList es = true → 0 < es.length →
      Prints (.members sign es) (memberTokens sign es)
  | [], _, nonempty => by simp at nonempty
  | [e], long, _ => by
      rw [Expr.haveNoShortList, Bool.and_eq_true] at long
      exact .last (prints_operandTokens e long.1)
  | e :: f :: rest, long, _ => by
      rw [Expr.haveNoShortList, Bool.and_eq_true] at long
      exact .more (prints_operandTokens e long.1)
        (prints_memberTokens sign (f :: rest) long.2 (by simp))

end

theorem prints_plainTokens {e : Expr} (long : e.hasNoShortList = true) :
    Prints (.whole e) (plainTokens e) := by
  have printed := prints_operandTokens e long
  cases e with
  | var => exact .single printed
  | not => exact .single printed
  | and es =>
      rw [Expr.hasNoShortList, Bool.and_eq_true, decide_eq_true_eq] at long
      exact .and (prints_memberTokens .and es long.2 (by omega))
  | or es =>
      rw [Expr.hasNoShortList, Bool.and_eq_true, decide_eq_true_eq] at long
      exact .or (prints_memberTokens .or es long.2 (by omega))

/-! ### Tokens that need no layout -/

def Token.var? : Token → Option Nat
  | .var v => some v
  | _ => none

/-- Two tokens can stand side by side without layout: they are not both numerals. -/
def Apart (t u : Token) : Prop :=
  t.var? = none ∨ u.var? = none

/-- **No numeral meets a numeral** in a part of a formula. -/
theorem Spells.apart {part : Part} {tokens : List Token} {es : List Expr}
    (h : Spells part tokens es) : tokens.IsChain Apart := by
  have behind {rest : List Token} {sign : Token} (isSign : sign.var? = none)
      (hrest : rest.IsChain Apart) : (sign :: rest).IsChain Apart :=
    List.isChain_cons.mpr ⟨fun t _ => Or.inl isSign, hrest⟩
  have around {first rest : List Token} {sign : Token} (isSign : sign.var? = none)
      (hfirst : first.IsChain Apart) (hrest : rest.IsChain Apart) :
      (first ++ sign :: rest).IsChain Apart := by
    refine List.isChain_append.mpr ⟨hfirst, behind isSign hrest, ?_⟩
    rintro t - u ⟨⟩
    exact Or.inr isSign
  induction h with
  | var v => exact List.IsChain.singleton _
  | not _ ih => exact behind rfl ih
  | group _ ih => exact behind rfl (around rfl ih List.IsChain.nil)
  | factor _ ih => exact ih
  | and _ _ ihHead ihTail => exact around rfl ihHead ihTail
  | term _ ih => exact ih
  | or _ _ ihHead ihTail => exact around rfl ihHead ihTail

/-- The variables of what is spelled are those of the tokens, in the same order. -/
theorem Spells.vars_eq {part : Part} {tokens : List Token} {es : List Expr}
    (h : Spells part tokens es) : es.flatMap Expr.vars = tokens.filterMap Token.var? := by
  induction h with
  | var v => rfl
  | not _ ih =>
      rw [List.filterMap_cons_none rfl, ← ih]
      rfl
  | group _ ih =>
      rw [List.flatMap_singleton, vars_join_or, ih, List.cons_append, List.filterMap_cons_none rfl,
        List.filterMap_append, List.filterMap_cons_none rfl, List.filterMap_nil, List.append_nil]
  | factor _ ih => exact ih
  | and _ _ ihHead ihTail =>
      rw [List.flatMap_cons, ihTail, List.filterMap_append, ← ihHead, List.flatMap_singleton,
        List.filterMap_cons_none rfl]
  | term _ ih => rw [List.flatMap_singleton, vars_join_and, ih]
  | or _ _ ihHead ihTail =>
      rw [List.flatMap_cons, ihTail, List.filterMap_append, ← ihHead, vars_join_and,
        List.filterMap_cons_none rfl]

/-- Tokens are written by their characters alone, if their numerals are words and do not meet. -/
theorem written_chars {tokens : List Token} (apart : tokens.IsChain Apart)
    (areWords : ∀ v ∈ tokens.filterMap Token.var?, v < UInt64.size) :
    Written tokens (tokens.flatMap Token.chars) := by
  induction tokens with
  | nil => exact .nil
  | cons t rest ih =>
      obtain ⟨next, behind⟩ := List.isChain_cons.mp apart
      rw [List.flatMap_cons]
      cases t with
      | var v =>
          obtain ⟨isWord, areWords⟩ := List.forall_mem_cons.mp areWords
          refine written_numeral isWord ?_ (ih behind areWords)
          cases rest with
          | nil => exact endsNumeral_nil
          | cons u rest =>
              cases u with
              | var w => exact absurd (next _ rfl) (by simp [Apart, Token.var?])
              | not | and | or | opening | closing => exact endsNumeral_cons.mpr rfl
      | not | and | or | opening | closing => exact .sign rfl (ih behind areWords)

/-! ### Reading what is printed -/

/-- **A printed formula is read as itself**, with any layout. -/
theorem ofText?_of_prints {e : Expr} {tokens : List Token} {cs : List Char}
    (long : e.hasNoShortList = true) (printed : Prints (.whole e) tokens)
    (written : Written tokens cs) : ofText? cs = some e := by
  obtain ⟨es, spelled, joined⟩ := printed.spelled long
  exact ofText?_eq_some_iff.mpr ⟨tokens, es, written, spelled, joined⟩

/-- Every printing of a formula is written by the characters of its tokens alone, if the variables
of the formula are words. -/
theorem written_of_prints {e : Expr} {tokens : List Token} (long : e.hasNoShortList = true)
    (areWords : ∀ v ∈ e.vars, v < UInt64.size) (printed : Prints (.whole e) tokens) :
    Written tokens (tokens.flatMap Token.chars) := by
  obtain ⟨es, spelled, rfl⟩ := printed.spelled long
  rw [vars_join_or, spelled.vars_eq] at areWords
  exact written_chars spelled.apart areWords

end Formula

namespace Expr

open Formula

theorem read_eq_ok {s : String} {e : Expr} : read s = .ok e ↔ SpellsFormula s.toList e := by
  rw [← ofText?_eq_some_iff, read]
  cases ofText? s.toList <;> simp

/-- **The reader accepts exactly the grammar, and inverts printing.**  A text is read as a formula
if and only if it spells the formula.  A formula without short lists is read from each of its
printings, with any further parentheses and any layout; and if its variables are words it has a
printing that needs no layout at all. -/
theorem read_exact (e : Expr) :
    (∀ s : String, read s = .ok e ↔ SpellsFormula s.toList e) ∧
      (e.hasNoShortList = true →
        (∀ tokens cs, Prints (.whole e) tokens → Written tokens cs →
          read (String.ofList cs) = .ok e) ∧
        ((∀ v ∈ e.vars, v < UInt64.size) →
          Prints (.whole e) (plainTokens e) ∧ Written (plainTokens e) (toText e).toList)) := by
  refine ⟨fun s => read_eq_ok, fun long => ⟨fun tokens cs printed written => ?_, ?_⟩⟩
  · rw [read, String.toList_ofList, ofText?_of_prints long printed written]
  · intro areWords
    have printed := prints_plainTokens long
    rw [toText, String.toList_ofList]
    exact ⟨printed, written_of_prints long areWords printed⟩

/-- A disjunction with a negated conjunction, with needless parentheses, leading zeros and layout
of all four kinds. -/
theorem read_exact_of_padded_disjunction :
    let e : Expr := .or [.not (.and [.var 0, .var 12]), .and [.var 3, .not (.not (.var 0))]]
    let tokens : List Token := [.not, .opening, .var 0, .and, .opening, .opening, .var 12, .closing,
      .closing, .closing, .or, .opening, .var 3, .and, .not, .not, .var 0, .closing]
    let cs : List Char := " !\t(0&\n(( 0012 ) )\r)|(3 & ! !00) ".toList
    e.hasNoShortList = true ∧ (∀ v ∈ e.vars, v < UInt64.size) ∧
      Prints (.whole e) tokens ∧ Written tokens cs ∧
      read (String.ofList cs) = .ok e ∧ SpellsFormula cs e ∧
      read (toText e) = .ok e := by
  intro e tokens cs
  have long : e.hasNoShortList = true := by decide
  have areWords : ∀ v ∈ e.vars, v < UInt64.size := by decide
  have written : Written tokens cs := written_of_tokens? (by decide +kernel)
  have conjunction := Prints.parentheses (.and (.more (.var 0)
    (.last (.parentheses (.single (.parentheses (.single (.var 12))))))))
  have operand := Prints.parentheses (.and (.more (.var 3) (.last (.not (.not (.var 0))))))
  have printed : Prints (.whole e) tokens := .or (.more (.not conjunction) (.last operand))
  obtain ⟨reads, prints⟩ := read_exact e
  obtain ⟨readsPrinted, plain⟩ := prints long
  have read := readsPrinted tokens cs printed written
  have spelled := (reads _).mp read
  rw [String.toList_ofList] at spelled
  have readPlain := readsPrinted _ _ (plain areWords).1 (plain areWords).2
  rw [String.ofList_toList] at readPlain
  exact ⟨long, areWords, printed, written, read, spelled, readPlain⟩

end Expr
end FacetQuery
