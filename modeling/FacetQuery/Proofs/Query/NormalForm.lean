import FacetQuery.Proofs.Formula.Grammar
import FacetQuery.Proofs.Formula.Meaning
import FacetQuery.Proofs.Query.Numbering

/-!
# The formula of a query means what the query means

A query in normal form leaves its printer as a text and reaches the logic through a reader
that knows nothing of trees.  Between the two stand the tokens of the text (`tokens`) and the
formula that these tokens spell (`expr`), and each is compared with its neighbours only:

* the text writes the tokens, whatever text follows (`written_formulaText`);
* the tokens spell the formula as one factor, which the parentheses around every list of
  children are there for (`spells_tokens`);
* the formula has the leaves as its variables and the reading of the tree as its truth value
  (`vars_expr`, `eval_expr`).

### What is load-bearing

Empty lists are excluded because `()` is no formula.  Numbers of atoms have to be words,
because the reader refuses longer numerals; nothing else is asked of a query.
-/

namespace FacetQuery
namespace QueryTree

open Formula

/-! ### Tokens and formulas of numbered trees -/

def negationToken (negated : Bool) : List Token :=
  if negated then [.not] else []

mutual

def tokens : Tree Nat → List Token
  | .leaf id negated => negationToken negated ++ [.var id]
  | .all children negated =>
    negationToken negated ++ (.opening :: joinedTokens .and children ++ [.closing])
  | .any children => .opening :: joinedTokens .or children ++ [.closing]

def joinedTokens (sign : Token) : List (Tree Nat) → List Token
  | [] => []
  | t :: rest => tokens t ++ behindTokens sign rest

def behindTokens (sign : Token) : List (Tree Nat) → List Token
  | [] => []
  | t :: rest => sign :: (tokens t ++ behindTokens sign rest)

end

def negateIf (negated : Bool) (e : Expr) : Expr :=
  if negated then .not e else e

mutual

def expr : Tree Nat → Expr
  | .leaf id negated => negateIf negated (.var id)
  | .all children negated => negateIf negated (join .and (exprs children))
  | .any children => join .or (exprs children)

def exprs : List (Tree Nat) → List Expr
  | [] => []
  | t :: rest => expr t :: exprs rest

end

/-! ### The text writes the tokens -/

private theorem written_negation (negated : Bool) {following : List Token} {cs : List Char}
    (rest : Written following cs) :
    Written (negationToken negated ++ following) (negationSign negated ++ cs) := by
  cases negated with
  | false => exact rest
  | true => exact .sign rfl rest

private theorem endsNumeral_behindText {c : Char} (noDigit : c.isDigit = false)
    (ts : List (Tree Nat)) {cs : List Char} (ends : EndsNumeral cs) :
    EndsNumeral (behindText c ts ++ cs) := by
  cases ts with
  | nil => exact ends
  | cons t rest =>
      rw [behindText, List.cons_append, List.cons_append, endsNumeral_cons]
      exact noDigit

mutual

/-- **The formula text of a tree writes the tokens of the tree**, in front of any text that
does not begin with a digit. -/
theorem written_formulaText {following : List Token} {cs : List Char} :
    ∀ t : Tree Nat, (∀ id ∈ t.labels, id < UInt64.size) → EndsNumeral cs →
      Written following cs → Written (tokens t ++ following) (formulaText t ++ cs)
  | .leaf id negated, areWords, ends, rest => by
      rw [tokens, formulaText, List.append_assoc, List.append_assoc]
      exact written_negation negated
        (written_numeral (areWords id List.mem_cons_self) ends rest)
  | .all children negated, areWords, _, rest => by
      rw [tokens, formulaText]
      simp only [List.append_assoc, List.cons_append, List.nil_append]
      -- What follows the last child is a parenthesis, so its numeral ends there.
      refine written_negation negated (.sign rfl ?_)
      exact written_joinedText rfl children areWords (by simp) (.sign rfl rest)
  | .any children, areWords, _, rest => by
      rw [tokens, formulaText]
      simp only [List.append_assoc, List.cons_append, List.nil_append]
      refine .sign rfl ?_
      exact written_joinedText rfl children areWords (by simp) (.sign rfl rest)

theorem written_joinedText {sign : Token} {c : Char} (isSign : Token.ofSign? c = some sign)
    {following : List Token} {cs : List Char} :
    ∀ ts : List (Tree Nat), (∀ id ∈ Tree.labelsOf ts, id < UInt64.size) → EndsNumeral cs →
      Written following cs →
        Written (joinedTokens sign ts ++ following) (joinedText c ts ++ cs)
  | [], _, _, rest => rest
  | t :: ts, areWords, ends, rest => by
      simp only [Tree.labelsOf, List.mem_append] at areWords
      rw [joinedTokens, joinedText, List.append_assoc, List.append_assoc]
      refine written_formulaText t (fun id hid => areWords id (Or.inl hid)) ?_ ?_
      · exact endsNumeral_behindText (isDigit_eq_false_of_ofSign? isSign) ts ends
      · exact written_behindText isSign ts (fun id hid => areWords id (Or.inr hid)) ends rest

private theorem written_behindText {sign : Token} {c : Char} (isSign : Token.ofSign? c = some sign)
    {following : List Token} {cs : List Char} :
    ∀ ts : List (Tree Nat), (∀ id ∈ Tree.labelsOf ts, id < UInt64.size) → EndsNumeral cs →
      Written following cs →
        Written (behindTokens sign ts ++ following) (behindText c ts ++ cs)
  | [], _, _, rest => rest
  | t :: ts, areWords, ends, rest => by
      simp only [Tree.labelsOf, List.mem_append] at areWords
      rw [behindTokens, behindText]
      simp only [List.append_assoc, List.cons_append]
      refine .sign isSign (written_formulaText t (fun id hid => areWords id (Or.inl hid)) ?_ ?_)
      · exact endsNumeral_behindText (isDigit_eq_false_of_ofSign? isSign) ts ends
      · exact written_behindText isSign ts (fun id hid => areWords id (Or.inr hid)) ends rest

end

/-! ### The tokens spell the formula -/

private theorem spells_negation (negated : Bool) {following : List Token} {e : Expr}
    (h : Spells .factor following [e]) :
    Spells .factor (negationToken negated ++ following) [negateIf negated e] := by
  cases negated with
  | false => exact h
  | true => exact .not h

mutual

/-- **The tokens of a tree spell its formula**, and do so as a single factor. -/
theorem spells_tokens :
    ∀ t : Tree Nat, t.hasNoEmptyList = true → Spells .factor (tokens t) [expr t]
  | .leaf id negated, _ => spells_negation negated (.var id)
  | .all children negated, nonempty => by
      simp only [Tree.hasNoEmptyList, Bool.and_eq_true, Bool.not_eq_true'] at nonempty
      rw [tokens, expr]
      refine spells_negation negated ?_
      exact .group (.term (spells_conjunction children nonempty.1 nonempty.2))
  | .any children, nonempty => by
      simp only [Tree.hasNoEmptyList, Bool.and_eq_true, Bool.not_eq_true'] at nonempty
      rw [tokens, expr]
      -- Without the parentheses a disjunction would be no factor.
      exact .group (spells_disjunction children nonempty.1 nonempty.2)

theorem spells_conjunction :
    ∀ ts : List (Tree Nat), ts.isEmpty = false → Tree.haveNoEmptyList ts = true →
      Spells .factors (joinedTokens .and ts) (exprs ts)
  | [], isNil, _ => by simp at isNil
  | [t], _, nonempty => by
      simp only [Tree.haveNoEmptyList, Bool.and_eq_true] at nonempty
      rw [joinedTokens, behindTokens, List.append_nil]
      exact .factor (spells_tokens t nonempty.1)
  | t :: u :: rest, _, nonempty => by
      rw [Tree.haveNoEmptyList, Bool.and_eq_true] at nonempty
      exact .and (spells_tokens t nonempty.1) (spells_conjunction (u :: rest) rfl nonempty.2)

theorem spells_disjunction :
    ∀ ts : List (Tree Nat), ts.isEmpty = false → Tree.haveNoEmptyList ts = true →
      Spells .terms (joinedTokens .or ts) (exprs ts)
  | [], isNil, _ => by simp at isNil
  | [t], _, nonempty => by
      simp only [Tree.haveNoEmptyList, Bool.and_eq_true] at nonempty
      rw [joinedTokens, behindTokens, List.append_nil]
      exact .term (.factor (spells_tokens t nonempty.1))
  | t :: u :: rest, _, nonempty => by
      rw [Tree.haveNoEmptyList, Bool.and_eq_true] at nonempty
      exact .or (.factor (spells_tokens t nonempty.1))
        (spells_disjunction (u :: rest) rfl nonempty.2)

end

/-- The formula text of a tree is read as the formula of the tree. -/
theorem ofText?_formulaText {t : Tree Nat} (nonempty : t.hasNoEmptyList = true)
    (areWords : ∀ id ∈ t.labels, id < UInt64.size) : ofText? (formulaText t) = some (expr t) := by
  have written := written_formulaText t areWords endsNumeral_nil .nil
  rw [List.append_nil, List.append_nil] at written
  exact ofText?_of_spells written (.term (.factor (spells_tokens t nonempty)))

/-! ### The formula means what the tree means -/

theorem eval_negateIf (a : Assignment) (negated : Bool) (e : Expr) :
    (negateIf negated e).eval a = (e.eval a != negated) := by
  cases negated with
  | false => simp [negateIf]
  | true => simp [negateIf, Expr.eval]

theorem vars_negateIf (negated : Bool) (e : Expr) : (negateIf negated e).vars = e.vars := by
  cases negated <;> rfl

mutual

theorem eval_expr (a : Assignment) : ∀ t : Tree Nat, (expr t).eval a = t.holds a.value
  | .leaf id negated => by rw [expr, eval_negateIf, Expr.eval, Tree.holds]
  | .all children negated => by
      rw [expr, eval_negateIf, eval_join_and, Tree.holds, all_eval_exprs a children]
  | .any children => by rw [expr, eval_join_or, Tree.holds, any_eval_exprs a children]

private theorem all_eval_exprs (a : Assignment) :
    ∀ ts : List (Tree Nat), (exprs ts).all (Expr.eval a) = Tree.allHold a.value ts
  | [] => rfl
  | t :: rest => by
      rw [exprs, List.all_cons, Tree.allHold, eval_expr a t, all_eval_exprs a rest]

theorem any_eval_exprs (a : Assignment) :
    ∀ ts : List (Tree Nat), (exprs ts).any (Expr.eval a) = Tree.someHolds a.value ts
  | [] => rfl
  | t :: rest => by
      rw [exprs, List.any_cons, Tree.someHolds, eval_expr a t, any_eval_exprs a rest]

end

mutual

theorem vars_expr : ∀ t : Tree Nat, (expr t).vars = t.labels
  | .leaf id negated => by rw [expr, vars_negateIf, Expr.vars, Tree.labels]
  | .all children negated => by
      rw [expr, vars_negateIf, vars_join_and, Tree.labels, vars_exprs children]
  | .any children => by rw [expr, vars_join_or, Tree.labels, vars_exprs children]

theorem vars_exprs :
    ∀ ts : List (Tree Nat), (exprs ts).flatMap Expr.vars = Tree.labelsOf ts
  | [] => rfl
  | t :: rest => by
      rw [exprs, List.flatMap_cons, Tree.labelsOf, vars_expr t, vars_exprs rest]

end

/-! ### Queries in normal form -/

/-- The formula that the normal form of a query spells. -/
def normalExpr (t : QueryTree) : Expr :=
  expr (t.map t.normalize.registry.atoms.idxOf)

/-- The variables of the formula are numbers of atoms. -/
theorem vars_normalExpr_lt {t : QueryTree} :
    ∀ v ∈ t.normalExpr.vars, v < t.normalize.registry.size := by
  intro v hv
  rw [normalExpr, vars_expr, Tree.labels_map, List.mem_map] at hv
  obtain ⟨a, atLeaf, rfl⟩ := hv
  exact Registry.idxOf_lt_size (mem_registry_normalize.mpr atLeaf)

/-- Every leaf has a number. -/
theorem idOf?_normalize {t : QueryTree} {a : Atom} (atLeaf : a ∈ t.labels) :
    t.normalize.registry.idOf? a = some (t.normalize.registry.atoms.idxOf a) :=
  Registry.idOf?_eq_some (mem_registry_normalize.mpr atLeaf)

/-- The formula of a query is read back from the text of its normal form. -/
theorem read_formula_normalize {t : QueryTree} (nonempty : t.hasNoEmptyList = true)
    (areWords : t.normalize.registry.size ≤ UInt64.size) :
    Expr.read t.normalize.formula = .ok t.normalExpr := by
  have read : ofText? (formulaText (t.map t.normalize.registry.atoms.idxOf)) =
      some t.normalExpr := by
    refine ofText?_formulaText ?_ ?_
    · rw [Tree.hasNoEmptyList_map, nonempty]
    · intro id hid
      rw [← vars_expr] at hid
      exact Nat.lt_of_lt_of_le (vars_normalExpr_lt id hid) areWords
  rw [formula_normalize, Expr.read, String.toList_ofList, read]

theorem eval_normalExpr (t : QueryTree) (a : Assignment) :
    t.normalExpr.eval a = t.holds fun atom => a.value (t.normalize.registry.atoms.idxOf atom) := by
  rw [normalExpr, eval_expr, Tree.holds_map]

/-- **Normal form preserves meaning across the text boundary.**  The text of a query in normal
form is read as a formula over the registered numbers, and the formula is true under an
assignment exactly when the query holds with the bit of its number for every atom.  The reader
takes numerals that are machine words, which is all that is asked of the number of atoms here; a
query that is evaluated has fewer atoms than an assignment has bits. -/
theorem normalize_preserves_meaning {t : QueryTree} (nonempty : t.hasNoEmptyList = true)
    (areWords : t.normalize.registry.size ≤ UInt64.size) :
    ∃ e, Expr.read t.normalize.formula = .ok e ∧
      (∀ v ∈ e.vars, v < t.normalize.registry.size) ∧
      (∀ atom ∈ t.labels, ∃ id < t.normalize.registry.size,
        t.normalize.registry.idOf? atom = some id) ∧
      ∀ a : Assignment,
        e.eval a = t.holds fun atom => (t.normalize.registry.idOf? atom).any a.value := by
  refine ⟨t.normalExpr, read_formula_normalize nonempty areWords, vars_normalExpr_lt, ?_, ?_⟩
  · intro atom atLeaf
    exact ⟨_, Registry.idxOf_lt_size (mem_registry_normalize.mpr atLeaf), idOf?_normalize atLeaf⟩
  · intro a
    rw [eval_normalExpr]
    refine Tree.holds_congr t fun atom atLeaf => ?_
    rw [idOf?_normalize atLeaf, Option.any_some]

/-- A negated conjunction over a disjunction, in which one atom occurs twice. -/
theorem normalize_preserves_meaning_of_repeated_atom :
    let shipped : Atom := ⟨"status", [.text "Shipped"]⟩
    let red : Atom := ⟨"color", [.text "Red", .text "Blue"]⟩
    let t : QueryTree :=
      .all [.leaf shipped false, .any [.all [.leaf red false] false, .leaf shipped true]] true
    t.hasNoEmptyList = true ∧ t.normalize.registry.size ≤ UInt64.size ∧
      ∃ e, Expr.read t.normalize.formula = .ok e ∧
        (∀ v ∈ e.vars, v < t.normalize.registry.size) ∧
        (∀ atom ∈ t.labels, ∃ id < t.normalize.registry.size,
          t.normalize.registry.idOf? atom = some id) ∧
        ∀ a : Assignment,
          e.eval a = t.holds fun atom => (t.normalize.registry.idOf? atom).any a.value := by
  intro shipped red t
  have areWords : t.normalize.registry.size ≤ UInt64.size := by
    rw [size_registry_normalize]
    decide
  exact ⟨by decide, areWords, normalize_preserves_meaning (by decide) areWords⟩

end QueryTree
end FacetQuery
