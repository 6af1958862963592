import FacetQuery.Value

/-!
# Query trees

A query is a tree of conjunctions and disjunctions over leaves; a leaf and a conjunction
may be negated.  The label of the leaves is a parameter: a query as it is asked has
`Atom`s at its leaves, and a query whose atoms have been numbered has numbers there.

`Tree.holds` is the direct reading of a tree: given which labels hold, does the tree
hold?  Every other treatment of queries in this library is measured against it.
-/

namespace FacetQuery

/-- What is asked of one property: that it has, or matches, one of the values.  The order of the
values counts, so the same values in another order are another atom. -/
structure Atom where
  property : String
  values : List Value
deriving DecidableEq, Hashable

/-- A tree of conjunctions and disjunctions over labels.  A leaf or a conjunction may be
negated, a disjunction may not. -/
inductive Tree (α : Type) where
  | leaf (label : α) (negated : Bool)
  | all (children : List (Tree α)) (negated : Bool)
  | any (children : List (Tree α))

abbrev QueryTree := Tree Atom

namespace Tree

variable {α : Type}

mutual

def holds (truth : α → Bool) : Tree α → Bool
  | leaf label negated => truth label != negated
  | all children negated => allHold truth children != negated
  | any children => someHolds truth children

def allHold (truth : α → Bool) : List (Tree α) → Bool
  | [] => true
  | t :: rest => holds truth t && allHold truth rest

def someHolds (truth : α → Bool) : List (Tree α) → Bool
  | [] => false
  | t :: rest => holds truth t || someHolds truth rest

end

mutual

def labels : Tree α → List α
  | leaf label _ => [label]
  | all children _ => labelsOf children
  | any children => labelsOf children

def labelsOf : List (Tree α) → List α
  | [] => []
  | t :: rest => labels t ++ labelsOf rest

end

mutual

/-- Whether no conjunction and no disjunction of the tree is without children. -/
def hasNoEmptyList : Tree α → Bool
  | leaf _ _ => true
  | all children _ => !children.isEmpty && haveNoEmptyList children
  | any children => !children.isEmpty && haveNoEmptyList children

def haveNoEmptyList : List (Tree α) → Bool
  | [] => true
  | t :: rest => hasNoEmptyList t && haveNoEmptyList rest

end

theorem allHold_eq_all (truth : α → Bool) (ts : List (Tree α)) :
    allHold truth ts = ts.all (holds truth) := by
  induction ts with
  | nil => simp [allHold]
  | cons t rest ih => simp [allHold, ih]

theorem someHolds_eq_any (truth : α → Bool) (ts : List (Tree α)) :
    someHolds truth ts = ts.any (holds truth) := by
  induction ts with
  | nil => simp [someHolds]
  | cons t rest ih => simp [someHolds, ih]

theorem labelsOf_eq_flatMap (ts : List (Tree α)) : labelsOf ts = ts.flatMap labels := by
  induction ts with
  | nil => simp [labelsOf]
  | cons t rest ih => simp [labelsOf, ih]

theorem haveNoEmptyList_eq_all (ts : List (Tree α)) :
    haveNoEmptyList ts = ts.all hasNoEmptyList := by
  induction ts with
  | nil => simp [haveNoEmptyList]
  | cons t rest ih => simp [haveNoEmptyList, ih]

end Tree
end FacetQuery
