import FacetQuery.Formula.Reader
import FacetQuery.Proofs.Formula.Lexing

/-!
# The grammar of formulas

`Spells part tokens es` says that tokens spell the formulas `es` as a part of a formula: one
factor, the factors of a term, or the terms of a formula.  It is the grammar as it stands in
`FacetQuery.Formula.Reader`, without a word about how it is read.

The reader works differently: it goes from left to right and keeps a stack with one `Level`
for each open parenthesis.  `ofText?_of_spells` says that it finds what the grammar derives.
The invariant that carries the induction says where a part leaves the reader
(`ReadsAs`): a factor and a list of factors are added to the innermost level, whatever that
level held before, and the terms of a formula leave a level that stands for all of them.
-/

namespace FacetQuery
namespace Formula

inductive Part where
  | factor
  | factors
  | terms

/-- **The grammar**: what tokens spell as a part of a formula. -/
inductive Spells : Part → List Token → List Expr → Prop where
  | var (v : Nat) : Spells .factor [.var v] [.var v]
  | not {tokens : List Token} {e : Expr} (operand : Spells .factor tokens [e]) :
      Spells .factor (.not :: tokens) [.not e]
  | group {tokens : List Token} {es : List Expr} (inside : Spells .terms tokens es) :
      Spells .factor (.opening :: tokens ++ [.closing]) [join .or es]
  | factor {tokens : List Token} {e : Expr} (single : Spells .factor tokens [e]) :
      Spells .factors tokens [e]
  | and {first rest : List Token} {e : Expr} {es : List Expr} (head : Spells .factor first [e])
      (tail : Spells .factors rest es) : Spells .factors (first ++ .and :: rest) (e :: es)
  | term {tokens : List Token} {es : List Expr} (single : Spells .factors tokens es) :
      Spells .terms tokens [join .and es]
  | or {first rest : List Token} {es fs : List Expr} (head : Spells .factors first es)
      (tail : Spells .terms rest fs) :
      Spells .terms (first ++ .or :: rest) (join .and es :: fs)

/-! ### Levels -/

theorem negate_not (n : Nat) (e : Expr) : negate n (.not e) = .not (negate n e) := by
  induction n with
  | zero => rfl
  | succ n ih => rw [negate, ih, negate]

/-- A negation that waits becomes part of the next factor. -/
theorem Level.addFactor_addNegation (level : Level) (e : Expr) :
    level.addNegation.addFactor e = level.addFactor (.not e) := by
  simp only [Level.addFactor, Level.addNegation, negate, negate_not]

/-- Factors collect on a level on which no negation waits. -/
theorem Level.foldl_addFactor {level : Level} (settled : level.negations = 0) (es : List Expr) :
    es.foldl Level.addFactor level = { level with factors := es.reverse ++ level.factors } := by
  induction es generalizing level with
  | nil => rfl
  | cons e es ih =>
      rw [List.foldl_cons, ih (by rfl)]
      simp [Level.addFactor, settled, negate]

/-- The formula of a level whose last term consists of the given factors. -/
theorem Level.formula_factors (level : Level) (es : List Expr) :
    Level.formula { level with factors := es.reverse } =
      join .or (level.terms.reverse ++ [join .and es]) := by
  simp [Level.formula, Level.endTerm]

/-! ### Reading what is spelled -/

/-- Where a part of a formula leaves the reader, whatever comes behind it. -/
def ReadsAs (part : Part) (tokens : List Token) (es : List Expr) : Prop :=
  match part with
  | .factor | .factors => ∀ (level : Level) (outer : List Level) (rest : List Token),
      readTokens .factor level outer (tokens ++ rest) =
        readTokens .sign (es.foldl Level.addFactor level) outer rest
  | .terms => ∀ (level : Level) (outer : List Level) (rest : List Token),
      level.factors = [] → level.negations = 0 →
        ∃ level' : Level, readTokens .factor level outer (tokens ++ rest) =
          readTokens .sign level' outer rest ∧
          level'.formula = join .or (level.terms.reverse ++ es)

/-- **The reader finds what the grammar derives**, at any depth and in front of anything. -/
theorem Spells.readsAs {part : Part} {tokens : List Token} {es : List Expr}
    (h : Spells part tokens es) : ReadsAs part tokens es := by
  induction h with
  | var v =>
      intro level outer rest
      rw [List.cons_append, readTokens]
      rfl
  | not _ ih =>
      intro level outer rest
      rw [List.cons_append, readTokens, ih]
      simp only [List.foldl_cons, List.foldl_nil, Level.addFactor_addNegation]
  | group _ ih =>
      intro level outer rest
      obtain ⟨inner, reads, formula⟩ := ih .empty (level :: outer) (.closing :: rest) rfl rfl
      rw [List.cons_append, List.cons_append, readTokens, List.append_assoc,
        List.singleton_append, reads, readTokens, formula]
      rfl
  | factor _ ih => exact ih
  | and _ _ ihHead ihTail =>
      intro level outer rest
      rw [List.append_assoc, List.cons_append, ihHead, readTokens, ihTail]
      rfl
  | @term _ es _ ih =>
      -- The factors of the last term stay in the level until the level is closed.
      intro level outer rest noFactors settled
      refine ⟨_, ih level outer rest, ?_⟩
      rw [Level.foldl_addFactor settled, noFactors, List.append_nil, Level.formula_factors]
  | @or _ _ es fs _ _ ihHead ihTail =>
      intro level outer rest noFactors settled
      rw [List.append_assoc, List.cons_append, ihHead, readTokens,
        Level.foldl_addFactor settled, noFactors, List.append_nil]
      -- The sign between the terms has closed the first of them.
      obtain ⟨level', reads, formula⟩ :=
        ihTail (Level.endTerm { level with factors := es.reverse }) outer rest rfl rfl
      refine ⟨level', reads, ?_⟩
      rw [formula]
      simp [Level.endTerm]

/-- A text that writes what the grammar derives is read as what it derives. -/
theorem ofText?_of_spells {tokens : List Token} {cs : List Char} {es : List Expr}
    (written : Written tokens cs) (spelled : Spells .terms tokens es) :
    ofText? cs = some (join .or es) := by
  obtain ⟨level, reads, formula⟩ := spelled.readsAs .empty [] [] rfl rfl
  rw [List.append_nil] at reads
  have := tokens?_of_written written
  simp only [ofText?, this, bind, Option.bind]
  rw [reads, readTokens, formula]
  rfl

/-- Whatever is read is written with some token: a text of blanks is no formula. -/
theorem exists_not_blank_of_ofText? {cs : List Char} {e : Expr} (h : ofText? cs = some e) :
    ∃ c ∈ cs, Text.isBlank c = false := by
  by_contra blank
  simp only [not_exists, not_and, Bool.not_eq_false] at blank
  obtain ⟨tokens, htokens, hread⟩ := Option.bind_eq_some_iff.mp h
  obtain rfl := (written_of_tokens? htokens).eq_nil_of_blank blank
  simp [readTokens] at hread

end Formula
end FacetQuery
