import Mathlib.Data.List.Basic
import FacetQuery.Path
import FacetQuery.Proofs.Query.NormalForm

/-!
# The text of a cover is a formula

A path is a tree of numbers: the conjunction of its literals (`Path.tree`).  The text of a path in
parentheses is the formula of that tree (`formulaText_tree`), so the text of a cover, which joins
such texts, is the text of a disjunction whose outermost parentheses are missing, and everything
that is known of the formulas of trees can be said of it (`read_coverText`).

### What is load-bearing

No path may be empty: `()` is no formula, although the empty path has a meaning.  The cover may
not be empty either, because the empty text is no formula.
-/

namespace FacetQuery

open QueryTree Formula

/-! ### Paths as trees -/

def Literal.tree (l : Literal) : Tree Nat :=
  .leaf l.var l.negated

theorem Literal.formulaText_tree (l : Literal) : formulaText l.tree = l.toChars := by
  rw [tree, formulaText, negationSign, toChars]
  cases l.negated <;> rfl

namespace Path

def tree (p : Path) : Tree Nat :=
  .all (p.literals.map Literal.tree) false

theorem behindText_map_tree (ls : List Literal) :
    QueryTree.behindText '&' (ls.map Literal.tree) = Path.behindText ls := by
  induction ls with
  | nil => rfl
  | cons l ls ih =>
      rw [List.map_cons, QueryTree.behindText, ih, Literal.formulaText_tree, Path.behindText]

theorem joinedText_map_tree (p : Path) :
    joinedText '&' (p.literals.map Literal.tree) = p.toChars := by
  rw [toChars]
  cases p.literals with
  | nil => rfl
  | cons l ls =>
      rw [List.map_cons, joinedText, behindText_map_tree, Literal.formulaText_tree]

/-- **The formula of the tree of a path is the text of the path in parentheses.** -/
theorem formulaText_tree (p : Path) : formulaText p.tree = '(' :: p.toChars ++ [')'] := by
  rw [tree, formulaText, joinedText_map_tree]
  rfl

theorem holds_tree (p : Path) (a : Assignment) : p.tree.holds a.value = p.holds a := by
  rw [tree, Tree.holds, Tree.allHold_eq_all, List.all_map, Bool.bne_false, holds]
  exact congrArg p.literals.all (funext fun l => rfl)

theorem labels_tree (p : Path) : p.tree.labels = p.literals.map Literal.var := by
  rw [tree, Tree.labels, Tree.labelsOf_eq_flatMap, List.flatMap_map]
  exact List.map_eq_flatMap.symm

theorem hasNoEmptyList_tree {p : Path} (nonempty : p.literals ≠ []) :
    p.tree.hasNoEmptyList = true := by
  rw [tree, Tree.hasNoEmptyList, Tree.haveNoEmptyList_eq_all, Bool.and_eq_true, List.all_map]
  refine ⟨?_, List.all_eq_true.mpr fun l _ => rfl⟩
  simpa using nonempty

end Path

/-! ### The text of a cover -/

/-- The text of a cover: the texts of its paths, each in parentheses, with a sign between them. -/
def coverText (cover : List Path) : String :=
  "|".intercalate (cover.map fun p => "(" ++ toString p ++ ")")

def coverExpr (cover : List Path) : Expr :=
  join .or (exprs (cover.map Path.tree))

theorem toList_coverText (cover : List Path) :
    (coverText cover).toList = joinedText '|' (cover.map Path.tree) := by
  have single (p : Path) : ("(" ++ toString p ++ ")").toList = formulaText p.tree := by
    rw [Path.formulaText_tree, String.toList_append, String.toList_append]
    exact congrArg (fun cs => '(' :: cs ++ [')']) String.toList_ofList
  rw [coverText, String.toList_intercalate]
  cases cover with
  | nil => rfl
  | cons p cover =>
      rw [List.map_cons, List.map_cons, List.map_cons, joinedText]
      induction cover generalizing p with
      | nil => simp [single, QueryTree.behindText]
      | cons q cover ih =>
          rw [List.map_cons, List.map_cons, List.map_cons, List.intercalate_cons_cons, ih q,
            QueryTree.behindText, single]
          simp

/-- **The text of a cover is read as a formula**, provided that the cover has a path and that no
path is empty. -/
theorem read_coverText {cover : List Path} (hcover : cover ≠ [])
    (nonempty : ∀ p ∈ cover, p.literals ≠ [])
    (areWords : ∀ p ∈ cover, ∀ l ∈ p.literals, l.var < UInt64.size) :
    Expr.read (coverText cover) = .ok (coverExpr cover) := by
  have trees : Tree.haveNoEmptyList (cover.map Path.tree) = true := by
    rw [Tree.haveNoEmptyList_eq_all, List.all_map, List.all_eq_true]
    exact fun p hp => Path.hasNoEmptyList_tree (nonempty p hp)
  have labels : ∀ id ∈ Tree.labelsOf (cover.map Path.tree), id < UInt64.size := by
    intro id hid
    rw [Tree.labelsOf_eq_flatMap, List.flatMap_map, List.mem_flatMap] at hid
    obtain ⟨p, hp, hid⟩ := hid
    rw [Path.labels_tree] at hid
    obtain ⟨l, hl, rfl⟩ := List.mem_map.mp hid
    exact areWords p hp l hl
  have sign : Token.ofSign? '|' = some .or := rfl
  have written := written_joinedText sign (cover.map Path.tree) labels endsNumeral_nil .nil
  rw [List.append_nil, List.append_nil, ← toList_coverText] at written
  have read := ofText?_of_spells written (spells_disjunction _ (by simpa using hcover) trees)
  rw [Expr.read, read, coverExpr]

theorem eval_coverExpr (cover : List Path) (a : Assignment) :
    (coverExpr cover).eval a = coverHolds cover a := by
  rw [coverExpr, eval_join_or, any_eval_exprs, Tree.someHolds_eq_any, List.any_map, coverHolds]
  exact congrArg cover.any (funext fun p => p.holds_tree a)

theorem mem_vars_coverExpr {cover : List Path} {v : Nat} :
    v ∈ (coverExpr cover).vars ↔ ∃ p ∈ cover, ∃ l ∈ p.literals, l.var = v := by
  rw [coverExpr, vars_join_or, vars_exprs, Tree.labelsOf_eq_flatMap, List.flatMap_map,
    List.mem_flatMap]
  refine exists_congr fun p => and_congr_right fun _ => ?_
  rw [Path.labels_tree, List.mem_map]

end FacetQuery
