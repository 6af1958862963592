/-!
# Propositional formulas

A formula is built from variables, which are natural numbers, by negation and by
conjunctions and disjunctions of any number of members.  An `Assignment` gives a truth
value to each of the variables 0 to 63: bit `v` is the value of variable `v`.
-/

namespace FacetQuery

/-- A truth value for each of the variables 0 to 63, in one word. -/
abbrev Assignment := BitVec 64

def Assignment.value (a : Assignment) (v : Nat) : Bool :=
  a.getLsbD v

/-- A propositional formula.  Conjunctions and disjunctions have any number of members, also
none and one, though a reader never makes these. -/
inductive Expr where
  | var (v : Nat)
  | not (e : Expr)
  | and (es : List Expr)
  | or (es : List Expr)
deriving Inhabited

namespace Expr

mutual

def eval (a : Assignment) : Expr → Bool
  | var v => a.value v
  | not e => !eval a e
  | and es => evalAll a es
  | or es => evalSome a es

def evalAll (a : Assignment) : List Expr → Bool
  | [] => true
  | e :: rest => eval a e && evalAll a rest

def evalSome (a : Assignment) : List Expr → Bool
  | [] => false
  | e :: rest => eval a e || evalSome a rest

end

mutual

def vars : Expr → List Nat
  | var v => [v]
  | not e => vars e
  | and es => varsOf es
  | or es => varsOf es

def varsOf : List Expr → List Nat
  | [] => []
  | e :: rest => vars e ++ varsOf rest

end

def maxVar? (e : Expr) : Option Nat :=
  e.vars.max?

theorem evalAll_eq_all (a : Assignment) (es : List Expr) : evalAll a es = es.all (eval a) := by
  induction es with
  | nil => simp [evalAll]
  | cons e rest ih => simp [evalAll, ih]

theorem evalSome_eq_any (a : Assignment) (es : List Expr) : evalSome a es = es.any (eval a) := by
  induction es with
  | nil => simp [evalSome]
  | cons e rest ih => simp [evalSome, ih]

end Expr
end FacetQuery
