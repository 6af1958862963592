import FacetQuery.Cover
import FacetQuery.Formula.Reader
import FacetQuery.Tabulation

/-!
# Minimising formulas

A formula over `n` variables is reduced to a cover: the rows in which it is true are
tabulated, their prime implicants are found, and a smallest set of them that covers all
rows is chosen.  Each chosen implicant is a path.

A formula without variables, a blank formula and a formula that is never true have the
empty cover.
-/

namespace FacetQuery

/-- The largest number of variables of a formula that is tabulated.  It is one less than there
are bits in a word, so the number of rows is a word as well. -/
def maxVariables : Nat :=
  63

inductive MinimizeError where
  | tooManyVariables (count : Nat)
  | unknownVariable (var numVars : Nat)
  | formula (error : FormulaError)
deriving DecidableEq

def MinimizeError.message : MinimizeError → String
  | tooManyVariables count =>
    String.ofList (Text.numeral count) ++ " distinct predicates exceed the supported maximum of " ++
      String.ofList (Text.numeral maxVariables)
  | unknownVariable var numVars =>
    "formula references variable " ++ String.ofList (Text.numeral var) ++ " but only " ++
      String.ofList (Text.numeral numVars) ++ " are declared"
  | formula error => error.message

/-- The rows in which a formula is true, ascending.  The number of variables is checked before
the formula is read, and the variables are checked after it. -/
def truthTable (formula : String) (numVars : Nat) : Except MinimizeError (List Assignment) := do
  if maxVariables < numVars then throw (.tooManyVariables numVars)
  let e ← (Expr.read formula).mapError .formula
  match e.maxVar? with
  | some v => if numVars ≤ v then throw (.unknownVariable v numVars)
  | none => pure ()
  pure (e.trueRows numVars)

/-- The steps of one minimisation: the rows, the prime implicants, and the cover with the part
of it that is essential. -/
structure Minimization where
  numVars : Nat
  rows : List Assignment
  primes : List Implicant
  essential : List Implicant
  cover : List Implicant

namespace Minimization

def never (numVars : Nat) : Minimization :=
  ⟨numVars, [], [], [], []⟩

def ofRows (rows : List Assignment) (numVars : Nat) : Minimization :=
  let primes := Tabulation.primeImplicants rows numVars
  let selection := Cover.select primes rows
  ⟨numVars, rows, primes, selection.essential, selection.cover⟩

/-- The minimisation of a formula.  A blank formula counts as one that is never true, which is
how an empty cover is written. -/
def run (formula : String) (numVars : Nat) : Except MinimizeError Minimization := do
  if maxVariables < numVars then throw (.tooManyVariables numVars)
  -- These formulas are not read, so they need not be well formed.
  if numVars = 0 ∨ (Text.trim formula.toList).isEmpty then return never numVars
  let rows ← truthTable formula numVars
  if rows.isEmpty then return never numVars
  return ofRows rows numVars

def paths (m : Minimization) : List Path :=
  m.cover.map Implicant.toPath

end Minimization

/-- The smallest cover of a formula. -/
def minimize (formula : String) (numVars : Nat) : Except MinimizeError (List Path) :=
  (Minimization.run formula numVars).map Minimization.paths

end FacetQuery
