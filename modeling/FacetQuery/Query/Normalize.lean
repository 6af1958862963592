import FacetQuery.Query.Registry
import FacetQuery.Text.Numeral

/-!
# Normal form of a query

A query is brought into the form on which the logic works in two steps: its atoms are
numbered from left to right (`number`), and the tree of numbers is written as a formula
(`formulaText`), in which a number stands for the atom, `!` negates, and `&` and `|`
join the children of a conjunction and of a disjunction between parentheses.

Equal trees have equal formulas, and a formula says nothing about properties and values.
-/

namespace FacetQuery
namespace QueryTree

mutual

/-- The tree with a number in place of every atom, and the registry that says which.  The
registry goes along from left to right, so atoms are numbered as they are first met. -/
def number (r : Registry) : QueryTree → Tree Nat × Registry
  | .leaf a negated =>
    let (id, r) := r.intern a
    (.leaf id negated, r)
  | .all children negated =>
    let (children, r) := numberList r children
    (.all children negated, r)
  | .any children =>
    let (children, r) := numberList r children
    (.any children, r)

def numberList (r : Registry) : List QueryTree → List (Tree Nat) × Registry
  | [] => ([], r)
  | t :: rest =>
    let (t, r) := number r t
    let (rest, r) := numberList r rest
    (t :: rest, r)

end

def negationSign (negated : Bool) : List Char :=
  if negated then ['!'] else []

mutual

/-- The formula of a tree of numbers.  Conjunctions and disjunctions always stand between
parentheses, so no precedence matters. -/
def formulaText : Tree Nat → List Char
  | .leaf id negated => negationSign negated ++ Text.numeral id
  | .all children negated => negationSign negated ++ '(' :: joinedText '&' children ++ [')']
  | .any children => '(' :: joinedText '|' children ++ [')']

def joinedText (sign : Char) : List (Tree Nat) → List Char
  | [] => []
  | t :: rest => formulaText t ++ behindText sign rest

def behindText (sign : Char) : List (Tree Nat) → List Char
  | [] => []
  | t :: rest => sign :: formulaText t ++ behindText sign rest

end

structure Normalized where
  formula : String
  registry : Registry

def normalize (t : QueryTree) : Normalized :=
  let (numbered, registry) := number Registry.empty t
  ⟨String.ofList (formulaText numbered), registry⟩

end QueryTree
end FacetQuery
