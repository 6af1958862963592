import FacetQuery.Formula.Expr
import FacetQuery.Formula.Token

/-!
# Reading formulas

The grammar of formulas is

* a formula is one or more terms with `|` between them,
* a term is one or more factors with `&` between them,
* a factor is a variable, `!` and a factor, or a formula between parentheses,

so `!` binds more closely than `&`, and `&` more closely than `|`.  A single term or
factor stands for itself; only two or more make a disjunction or a conjunction.

The reader takes one token after the other.  What it has to remember is one `Level` for
each parenthesis that is open: the terms and factors that are complete, and how many
negations wait for a factor.
-/

namespace FacetQuery

namespace Formula

/-- The formula of one or more members: one stands for itself, more are joined. -/
def join (joined : List Expr → Expr) : List Expr → Expr
  | [e] => e
  | es => joined es

def negate : Nat → Expr → Expr
  | 0, e => e
  | n + 1, e => .not (negate n e)

/-- What has been read of a formula since its opening parenthesis: the complete terms and the
complete factors of the last term, the last one first, and how many negations wait for a factor. -/
structure Level where
  terms : List Expr
  factors : List Expr
  negations : Nat

namespace Level

def empty : Level :=
  ⟨[], [], 0⟩

def addNegation (l : Level) : Level :=
  { l with negations := l.negations + 1 }

def addFactor (l : Level) (e : Expr) : Level :=
  { l with factors := negate l.negations e :: l.factors, negations := 0 }

def endTerm (l : Level) : Level :=
  { terms := join .and l.factors.reverse :: l.terms, factors := [], negations := 0 }

/-- The formula that has been read.  The last term ends where the formula does. -/
def formula (l : Level) : Expr :=
  join .or l.endTerm.terms.reverse

end Level

/-- Whether a factor has to come next, or a sign behind a factor.  A formula can end only where
a sign may stand. -/
inductive Awaited where
  | factor
  | sign
deriving DecidableEq

/-- Reads the rest of a formula, of which the levels outside the innermost one are given
from the inside to the outside. -/
def readTokens (awaited : Awaited) (level : Level) (outer : List Level) :
    List Token → Option Expr
  | [] =>
    match awaited, outer with
    | .sign, [] => some level.formula
    | _, _ => none
  | token :: rest =>
    match awaited, token, outer with
    | .factor, .not, _ => readTokens .factor level.addNegation outer rest
    | .factor, .opening, _ => readTokens .factor .empty (level :: outer) rest
    | .factor, .var v, _ => readTokens .sign (level.addFactor (.var v)) outer rest
    | .sign, .and, _ => readTokens .factor level outer rest
    | .sign, .or, _ => readTokens .factor level.endTerm outer rest
    | .sign, .closing, l :: outer => readTokens .sign (l.addFactor level.formula) outer rest
    | _, _, _ => none

def ofText? (cs : List Char) : Option Expr := do
  readTokens .factor .empty [] (← tokens? cs)

end Formula

/-- A text that is not a formula, without the blanks around it.  It is not said where the text
goes wrong. -/
structure FormulaError where
  text : String
deriving DecidableEq

def FormulaError.message (e : FormulaError) : String :=
  "invalid formula: `" ++ e.text ++ "`"

def Expr.read (s : String) : Except FormulaError Expr :=
  match Formula.ofText? s.toList with
  | some e => .ok e
  | none => .error ⟨String.ofList (Text.trim s.toList)⟩

end FacetQuery
