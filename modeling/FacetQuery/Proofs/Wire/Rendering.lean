import Mathlib.Data.List.Basic
import FacetQuery.Proofs.Wire.Grammar

/-!
# The trees of the wire form

Which trees can be asked for in the wire form?  Those of one shape: conjunctions and disjunctions
alternate, from a conjunction at the root down to the leaves, and no list is empty (`isQuery`).
Every tree that is read has this shape (`SpellsQuery.isQuery`).  Conversely every tree of this shape is
read from its own rendering (`writeTree`), as long as its values have literals; the rendering is
then a value that a JSON text can have (`isProper_writeTree`).

The three facts are put together in `readQuery_exact`.
-/

namespace FacetQuery.Wire

open FacetQuery.Tree

/-! ### The shape of a query -/

mutual

/-- Whether a tree may be an item of a list. -/
def fits : QueryTree → ListKind → Bool
  | .leaf a _, _ => !a.values.isEmpty
  | .any children, .entries => !children.isEmpty && allFit children .alternatives
  | .all children _, .alternatives => !children.isEmpty && allFit children .entries
  | _, _ => false

def allFit : List QueryTree → ListKind → Bool
  | [], _ => true
  | t :: rest, kind => fits t kind && allFit rest kind

end

/-- **Whether a tree has the shape of a query**: its root is a conjunction, under a conjunction
there are leaves and disjunctions, under a disjunction there are leaves and conjunctions, and no
list is empty. -/
def isQuery : QueryTree → Bool
  | .all children _ => !children.isEmpty && allFit children .entries
  | _ => false

/-- A list with items spells a list with trees. -/
theorem Spells.ne_nil {kind : ListKind} {js : List Json} {ts : List QueryTree}
    (h : Spells kind js ts) (hjs : js ≠ []) : ts ≠ [] := by
  rintro rfl
  cases h
  exact hjs rfl

/-- **What is spelled has its place.** -/
theorem Spells.allFit {kind : ListKind} {js : List Json} {ts : List QueryTree}
    (h : Spells kind js ts) : allFit ts kind = true := by
  induction h with
  | nil kind => rw [Wire.allFit]
  | predicate spelled nonempty _ ih =>
      rw [Wire.allFit, fits, ih, Bool.and_true]
      simpa using nonempty
  | disjunction nonempty inside _ ihInside ih =>
      rw [Wire.allFit, fits, ih, ihInside]
      simpa using inside.ne_nil nonempty
  | query record nonempty inside _ ihInside ih =>
      rw [Wire.allFit, fits, ih, ihInside]
      simpa using inside.ne_nil nonempty

/-- Every tree that is spelled has the shape of a query. -/
theorem SpellsQuery.isQuery {j : Json} {t : QueryTree} (h : SpellsQuery j t) :
    isQuery t = true := by
  obtain ⟨_, nonempty, inside⟩ := h
  rw [Wire.isQuery, inside.allFit]
  simpa using inside.ne_nil nonempty

mutual

/-- No list of a tree that has its place is empty. -/
theorem hasNoEmptyList_of_fits :
    ∀ (t : QueryTree) (kind : ListKind), fits t kind = true → t.hasNoEmptyList = true
  | .leaf a negated, _, _ => rfl
  | .any children, .entries, h => by
      rw [fits, Bool.and_eq_true] at h
      rw [hasNoEmptyList, h.1, haveNoEmptyList_of_allFit children _ h.2, Bool.and_true]
  | .all children negated, .alternatives, h => by
      rw [fits, Bool.and_eq_true] at h
      rw [hasNoEmptyList, h.1, haveNoEmptyList_of_allFit children _ h.2, Bool.and_true]

private theorem haveNoEmptyList_of_allFit :
    ∀ (ts : List QueryTree) (kind : ListKind), allFit ts kind = true → haveNoEmptyList ts = true
  | [], _, _ => rfl
  | t :: rest, kind, h => by
      rw [allFit, Bool.and_eq_true] at h
      rw [haveNoEmptyList, hasNoEmptyList_of_fits t kind h.1,
        haveNoEmptyList_of_allFit rest kind h.2, Bool.and_true]

end

theorem hasNoEmptyList_of_isQuery :
    ∀ {t : QueryTree}, isQuery t = true → t.hasNoEmptyList = true
  | .all children negated, h => hasNoEmptyList_of_fits (.all children negated) .alternatives h

/-! ### Values with literals -/

/-- Whether a value has a literal of its own: a date is written as a text, and a double that is
not finite cannot be written. -/
def hasLiteral : Value → Bool
  | .bool _ => true
  | .int _ => true
  | .float x => x.isFinite
  | .text _ => true
  | .date _ => false

theorem spellsScalar_writeValue {v : Value} (h : hasLiteral v = true) :
    SpellsScalar (writeValue v) v := by
  cases v with
  | bool b => exact .bool b
  | int i => exact .int i
  | float x => exact .float x
  | text s => exact .text s
  | date d => cases h

/-! ### Rendering trees -/

/-- The field of a negation, which is written only where there is one. -/
def flagFields (negated : Bool) : List (String × Json) :=
  if negated then [("not", .bool true)] else []

mutual

/-- **The value that is written for a tree.** -/
def writeTree : QueryTree → Json
  | .leaf a negated =>
    .object (flagFields negated ++
      [("property", .text a.property), ("values", .array (a.values.map writeValue))])
  | .all children negated => .object (("and", .array (writeTrees children)) :: flagFields negated)
  | .any children => .object [("or", .array (writeTrees children))]

def writeTrees : List QueryTree → List Json
  | [] => []
  | t :: rest => writeTree t :: writeTrees rest

end

theorem writeTrees_ne_nil {ts : List QueryTree} (h : ts ≠ []) : writeTrees ts ≠ [] := by
  cases ts with
  | nil => exact absurd rfl h
  | cons t rest => exact List.cons_ne_nil _ _

theorem spellsPredicate_writeTree {a : Atom} {negated : Bool}
    (literals : ∀ v ∈ a.values, hasLiteral v = true) :
    SpellsPredicate (writeTree (.leaf a negated)) ⟨a.property, a.values, negated⟩ := by
  have scalars : List.Forall₂ SpellsScalar (a.values.map writeValue) a.values := by
    rw [List.forall₂_map_left_iff, List.forall₂_same]
    exact fun v hv => spellsScalar_writeValue (literals v hv)
  rw [writeTree]
  refine .object ⟨?_, ?_, ⟨.array (a.values.map writeValue), ?_, _, rfl, scalars⟩, ?_⟩
  · constructor <;> cases negated <;> simp [flagFields, predicateShape]
  · simp
  · simp
  · cases negated <;> simp [SpellsFlag, flagFields]

theorem spellsQueryFields_writeTree (children : List QueryTree) (negated : Bool) :
    SpellsQueryFields (("and", .array (writeTrees children)) :: flagFields negated)
      ⟨negated, writeTrees children⟩ := by
  refine ⟨?_, ?_, List.mem_cons_self⟩
  · constructor <;> cases negated <;> simp [flagFields, queryShape]
  · cases negated <;> simp [SpellsFlag, flagFields]

mutual

/-- **A tree that has its place is spelled by its rendering.** -/
theorem spellsItem_writeTree :
    ∀ (t : QueryTree) (kind : ListKind), fits t kind = true →
      (∀ a ∈ t.labels, ∀ v ∈ a.values, hasLiteral v = true) →
        SpellsItem Spells kind (writeTree t) t
  | .leaf a negated, _, h, literals => by
      rw [fits, Bool.not_eq_true', List.isEmpty_eq_false_iff] at h
      exact .predicate (spellsPredicate_writeTree (literals a List.mem_cons_self)) h
  | .any children, .entries, h, literals => by
      rw [fits, Bool.and_eq_true, Bool.not_eq_true', List.isEmpty_eq_false_iff] at h
      exact .disjunction (writeTrees_ne_nil h.1) (spells_writeTrees children _ h.2 literals)
  | .all children negated, .alternatives, h, literals => by
      rw [fits, Bool.and_eq_true, Bool.not_eq_true', List.isEmpty_eq_false_iff] at h
      exact .query (spellsQueryFields_writeTree children negated) (writeTrees_ne_nil h.1)
        (spells_writeTrees children _ h.2 literals)

private theorem spells_writeTrees :
    ∀ (ts : List QueryTree) (kind : ListKind), allFit ts kind = true →
      (∀ a ∈ labelsOf ts, ∀ v ∈ a.values, hasLiteral v = true) → Spells kind (writeTrees ts) ts
  | [], kind, _, _ => .nil kind
  | t :: rest, kind, h, literals => by
      rw [allFit, Bool.and_eq_true] at h
      simp only [labelsOf, List.mem_append] at literals
      rw [writeTrees, spells_cons]
      exact ⟨t, spellsItem_writeTree t kind h.1 fun a ha => literals a (Or.inl ha), rest,
        spells_writeTrees rest kind h.2 fun a ha => literals a (Or.inr ha), rfl⟩

end

theorem spellsQuery_writeTree :
    ∀ t : QueryTree, isQuery t = true →
      (∀ a ∈ t.labels, ∀ v ∈ a.values, hasLiteral v = true) → SpellsQuery (writeTree t) t
  | .all children negated, h, literals => by
      rw [isQuery, Bool.and_eq_true, Bool.not_eq_true', List.isEmpty_eq_false_iff] at h
      exact .mk (.object (spellsQueryFields_writeTree children negated)) (writeTrees_ne_nil h.1)
        (spells_writeTrees children _ h.2 literals)

/-! ### Renderings are values of JSON texts -/

/-- A JSON text can have a value when its whole numbers fit in 64 bits, its doubles are finite, and
its objects have their keys in ascending order. -/
inductive IsProper : Json → Prop where
  | null : IsProper .null
  | bool (b : Bool) : IsProper (.bool b)
  | int {i : Int} (low : Int64.minValue.toInt ≤ i) (high : i < UInt64.size) : IsProper (.int i)
  | float {x : Binary64} (finite : x.isFinite = true) : IsProper (.float x)
  | text (s : String) : IsProper (.text s)
  | array {items : List Json} (each : ∀ j ∈ items, IsProper j) : IsProper (.array items)
  | object {fields : List (String × Json)}
      (ascending : (fields.map Prod.fst).Pairwise fun key key' => key < key')
      (each : ∀ f ∈ fields, IsProper f.2) : IsProper (.object fields)

theorem isProper_writeValue {v : Value} (h : hasLiteral v = true) : IsProper (writeValue v) := by
  cases v with
  | bool b => exact .bool b
  | int i =>
      refine .int ?_ ?_
      · rw [Int64.toInt_minValue]
        exact Int64.le_toInt i
      · have := Int64.toInt_lt i
        rw [UInt64.size]
        omega
  | float x => exact .float h
  | text s => exact .text s
  | date d => cases h

mutual

/-- **A JSON text can have the rendering of a tree**, if the values of the tree have literals. -/
theorem isProper_writeTree :
    ∀ t : QueryTree, (∀ a ∈ t.labels, ∀ v ∈ a.values, hasLiteral v = true) →
      IsProper (writeTree t)
  | .leaf a negated, literals => by
      have values : IsProper (.array (a.values.map writeValue)) := by
        refine .array (List.forall_mem_map.mpr fun v hv => ?_)
        exact isProper_writeValue (literals a List.mem_cons_self v hv)
      have fields : ∀ f ∈ [("property", Json.text a.property),
          ("values", .array (a.values.map writeValue))], IsProper f.2 :=
        List.forall_mem_cons.mpr ⟨.text a.property, List.forall_mem_singleton.mpr values⟩
      have ascending : ["not", "property", "values"].Pairwise fun key key' => key < key' := by
        decide
      rw [writeTree]
      cases negated with
      | true => exact .object ascending (List.forall_mem_cons.mpr ⟨.bool true, fields⟩)
      | false => exact .object ascending.tail fields
  | .any children, literals => by
      have items := IsProper.array (areProper_writeTrees children literals)
      exact .object (List.pairwise_singleton _ "or") (List.forall_mem_singleton.mpr items)
  | .all children negated, literals => by
      have items := IsProper.array (areProper_writeTrees children literals)
      have ascending : ["and", "not"].Pairwise fun key key' => key < key' := by decide
      rw [writeTree]
      cases negated with
      | true =>
          exact .object ascending
            (List.forall_mem_cons.mpr ⟨items, List.forall_mem_singleton.mpr (.bool true)⟩)
      | false =>
          exact .object (List.pairwise_singleton _ "and") (List.forall_mem_singleton.mpr items)

private theorem areProper_writeTrees :
    ∀ ts : List QueryTree, (∀ a ∈ labelsOf ts, ∀ v ∈ a.values, hasLiteral v = true) →
      ∀ j ∈ writeTrees ts, IsProper j
  | [], _ => nofun
  | t :: rest, literals => by
      simp only [labelsOf, List.mem_append] at literals
      exact List.forall_mem_cons.mpr ⟨isProper_writeTree t fun a ha => literals a (Or.inl ha),
        areProper_writeTrees rest fun a ha => literals a (Or.inr ha)⟩

end

/-! ### The wire form -/

/-- **The reader accepts exactly the wire form, and reads back what is written.**  A value is read
as a tree if and only if it spells the tree; whatever is read has the shape of a query; and a tree
of this shape whose values have literals is written as a value of a JSON text, which is read as
this tree again. -/
theorem readQuery_exact (j : Json) (t : QueryTree) :
    (readQuery j = .ok t ↔ SpellsQuery j t) ∧
      (readQuery j = .ok t → isQuery t = true) ∧
      (isQuery t = true → (∀ a ∈ t.labels, ∀ v ∈ a.values, hasLiteral v = true) →
        IsProper (writeTree t) ∧ readQuery (writeTree t) = .ok t) := by
  refine ⟨readQuery_eq_ok, fun h => (readQuery_eq_ok.mp h).isQuery, fun shape literals => ?_⟩
  exact ⟨isProper_writeTree t literals, readQuery_eq_ok.mpr (spellsQuery_writeTree t shape literals)⟩

/-- A query with the array in place of the object at its root, and with a predicate in the same
form, is written with objects. -/
theorem readQuery_exact_of_positional_form :
    let j : Json := .array [.bool true, .array [.array [.text "size", .array [.int 7, .bool true]],
      .object [("or", .array [.object [("property", .text "city"),
        ("values", .array [.text "Elgin"])]])]]]
    let t : QueryTree := .all [.leaf ⟨"size", [.int 7, .bool true]⟩ false,
      .any [.leaf ⟨"city", [.text "Elgin"]⟩ false]] true
    SpellsQuery j t ∧ readQuery j = .ok t ∧ isQuery t = true ∧
      (∀ a ∈ t.labels, ∀ v ∈ a.values, hasLiteral v = true) ∧
      IsProper (writeTree t) ∧ readQuery (writeTree t) = .ok t := by
  intro j t
  have size : SpellsScalars (.array [.int 7, .bool true]) [.int 7, .bool true] :=
    ⟨_, rfl, .cons (.int 7) (.cons (.bool true) .nil)⟩
  have city : SpellsPredicateFields [("property", .text "city"),
      ("values", .array [.text "Elgin"])] ⟨"city", [.text "Elgin"], false⟩ :=
    ⟨⟨by decide, by decide⟩, List.mem_cons_self,
      ⟨_, List.mem_cons_of_mem _ List.mem_cons_self, _, rfl, .cons (.text "Elgin") .nil⟩,
      Or.inr ⟨rfl, by decide⟩⟩
  have alternatives := Spells.predicate (.object city) (by decide) (.nil .alternatives)
  have entries := Spells.predicate (.pair "size" size) (by decide)
    (.disjunction (by decide) alternatives (.nil .entries))
  have spelled : SpellsQuery j t := .mk (.array true _) (by decide) entries
  obtain ⟨reads, shaped, written⟩ := readQuery_exact j t
  have literals : ∀ a ∈ t.labels, ∀ v ∈ a.values, hasLiteral v = true := by decide
  have read := reads.mpr spelled
  exact ⟨spelled, read, shaped read, literals, written (shaped read) literals⟩

end FacetQuery.Wire
