import Mathlib.Data.List.Dedup
import FacetQuery.Query.Normalize

/-!
# Numbering the atoms of a query

Numbering walks through a query once and registers atoms on the way, so the number of a leaf
is handed out by a registry that is still growing.  Two facts make the outcome as simple as if
the registry had been complete from the start:

* a registry only grows at its end (`Registry.Extends`), so an atom keeps its number;
* the registry that is left behind depends on the leaves only, in their order
  (`number_snd`).

Together they say that a numbered query is the query with every atom replaced by its number
in the final registry, or in any later one (`number_fst`).
-/

namespace FacetQuery

/-! ### Registries that grow -/

namespace Registry

/-- A registry extends another one when it has the same atoms in the same places, and perhaps
more behind them. -/
def Extends (later earlier : Registry) : Prop :=
  earlier.atoms <+: later.atoms

theorem Extends.refl (r : Registry) : r.Extends r :=
  List.prefix_refl r.atoms

theorem Extends.trans {r s t : Registry} (h : t.Extends s) (h' : s.Extends r) : t.Extends r :=
  List.IsPrefix.trans h' h

/-- **An atom keeps its number** when more atoms are registered. -/
theorem Extends.idxOf_eq {later earlier : Registry} (h : later.Extends earlier) {a : Atom}
    (registered : a ∈ earlier.atoms) : later.atoms.idxOf a = earlier.atoms.idxOf a := by
  exact (List.IsPrefix.idxOf_eq_of_mem h registered).symm

theorem extends_intern (r : Registry) (a : Atom) : (r.intern a).2.Extends r := by
  rw [Extends, atoms_intern]
  split
  · exact List.prefix_refl r.atoms
  · exact List.prefix_append r.atoms [a]

theorem mem_atoms_intern {r : Registry} {a b : Atom} :
    b ∈ (r.intern a).2.atoms ↔ b ∈ r.atoms ∨ b = a := by
  rw [atoms_intern]
  split
  · rename_i registered
    constructor
    · exact Or.inl
    · rintro (h | rfl)
      · exact h
      · exact registered
  · rw [List.mem_append, List.mem_singleton]

/-- The number that is handed out is the one that the atom has from then on. -/
theorem intern_fst (r : Registry) (a : Atom) :
    (r.intern a).1 = (r.intern a).2.atoms.idxOf a := by
  unfold intern
  split
  · rename_i known
    have listed := (r.inverse a r.ids[a]).mp (Std.HashMap.getElem?_eq_some_getElem known)
    obtain ⟨below, same⟩ := List.getElem?_eq_some_iff.mp listed
    rw [← r.nodup.idxOf_getElem r.ids[a] below, same]
  · rename_i new
    rw [mem_ids_iff] at new
    rw [atoms_push, List.idxOf_append_of_notMem new]
    simp [size]

/-- The registry with the atoms of a list registered one after the other. -/
def internAll (r : Registry) (atoms : List Atom) : Registry :=
  atoms.foldl (fun r a => (r.intern a).2) r

theorem internAll_append (r : Registry) (as bs : List Atom) :
    r.internAll (as ++ bs) = (r.internAll as).internAll bs :=
  List.foldl_append

theorem extends_internAll (r : Registry) (atoms : List Atom) : (r.internAll atoms).Extends r := by
  induction atoms generalizing r with
  | nil => exact Extends.refl r
  | cons a atoms ih => exact (ih (r.intern a).2).trans (extends_intern r a)

theorem mem_atoms_internAll {r : Registry} {atoms : List Atom} {b : Atom} :
    b ∈ (r.internAll atoms).atoms ↔ b ∈ r.atoms ∨ b ∈ atoms := by
  induction atoms generalizing r with
  | nil => simp [internAll]
  | cons a atoms ih =>
      change b ∈ ((r.intern a).2.internAll atoms).atoms ↔ _
      rw [ih, mem_atoms_intern, List.mem_cons, or_assoc]

/-- A registered atom has its position as its number. -/
theorem idOf?_eq_some {r : Registry} {a : Atom} (registered : a ∈ r.atoms) :
    r.idOf? a = some (r.atoms.idxOf a) :=
  (r.inverse a _).mpr (List.getElem?_idxOf registered)

/-- The number of a registered atom is below the number of atoms. -/
theorem idxOf_lt_size {r : Registry} {a : Atom} (registered : a ∈ r.atoms) :
    r.atoms.idxOf a < r.size :=
  List.idxOf_lt_length_of_mem registered

end Registry

/-! ### Trees with other labels -/

namespace Tree

variable {α β : Type}

mutual

def map (f : α → β) : Tree α → Tree β
  | leaf label negated => leaf (f label) negated
  | all children negated => all (mapList f children) negated
  | any children => any (mapList f children)

def mapList (f : α → β) : List (Tree α) → List (Tree β)
  | [] => []
  | t :: rest => map f t :: mapList f rest

end

mutual

theorem labels_map (f : α → β) : ∀ t : Tree α, (t.map f).labels = t.labels.map f
  | leaf label negated => rfl
  | all children negated => by rw [map, labels, labels, labelsOf_mapList f children]
  | any children => by rw [map, labels, labels, labelsOf_mapList f children]

private theorem labelsOf_mapList (f : α → β) :
    ∀ ts : List (Tree α), labelsOf (mapList f ts) = (labelsOf ts).map f
  | [] => rfl
  | t :: rest => by
      rw [mapList, labelsOf, labelsOf, labels_map f t, labelsOf_mapList f rest, List.map_append]

end

mutual

/-- Replacing labels and then saying which hold is saying which hold of the old labels. -/
theorem holds_map (f : α → β) (truth : β → Bool) :
    ∀ t : Tree α, (t.map f).holds truth = t.holds fun label => truth (f label)
  | leaf label negated => rfl
  | all children negated => by rw [map, holds, holds, allHold_mapList f truth children]
  | any children => by rw [map, holds, holds, someHolds_mapList f truth children]

private theorem allHold_mapList (f : α → β) (truth : β → Bool) :
    ∀ ts : List (Tree α), allHold truth (mapList f ts) = allHold (fun label => truth (f label)) ts
  | [] => rfl
  | t :: rest => by
      rw [mapList, allHold, allHold, holds_map f truth t, allHold_mapList f truth rest]

private theorem someHolds_mapList (f : α → β) (truth : β → Bool) :
    ∀ ts : List (Tree α),
      someHolds truth (mapList f ts) = someHolds (fun label => truth (f label)) ts
  | [] => rfl
  | t :: rest => by
      rw [mapList, someHolds, someHolds, holds_map f truth t, someHolds_mapList f truth rest]

end

mutual

/-- A tree does not see labels that are at none of its leaves. -/
theorem holds_congr {f g : α → Bool} :
    ∀ t : Tree α, (∀ label ∈ t.labels, f label = g label) → t.holds f = t.holds g
  | leaf label negated, agree => by rw [holds, holds, agree label List.mem_cons_self]
  | all children negated, agree => by rw [holds, holds, allHold_congr children agree]
  | any children, agree => by rw [holds, holds, someHolds_congr children agree]

private theorem allHold_congr {f g : α → Bool} :
    ∀ ts : List (Tree α), (∀ label ∈ labelsOf ts, f label = g label) → allHold f ts = allHold g ts
  | [], _ => rfl
  | t :: rest, agree => by
      simp only [labelsOf, List.mem_append] at agree
      rw [allHold, allHold, holds_congr t fun l hl => agree l (Or.inl hl),
        allHold_congr rest fun l hl => agree l (Or.inr hl)]

private theorem someHolds_congr {f g : α → Bool} :
    ∀ ts : List (Tree α),
      (∀ label ∈ labelsOf ts, f label = g label) → someHolds f ts = someHolds g ts
  | [], _ => rfl
  | t :: rest, agree => by
      simp only [labelsOf, List.mem_append] at agree
      rw [someHolds, someHolds, holds_congr t fun l hl => agree l (Or.inl hl),
        someHolds_congr rest fun l hl => agree l (Or.inr hl)]

end

mutual

theorem hasNoEmptyList_map (f : α → β) :
    ∀ t : Tree α, (t.map f).hasNoEmptyList = t.hasNoEmptyList
  | leaf label negated => rfl
  | all children negated => by
      rw [map, hasNoEmptyList, hasNoEmptyList, haveNoEmptyList_mapList f children]
      cases children <;> rfl
  | any children => by
      rw [map, hasNoEmptyList, hasNoEmptyList, haveNoEmptyList_mapList f children]
      cases children <;> rfl

private theorem haveNoEmptyList_mapList (f : α → β) :
    ∀ ts : List (Tree α), haveNoEmptyList (mapList f ts) = haveNoEmptyList ts
  | [] => rfl
  | t :: rest => by
      rw [mapList, haveNoEmptyList, haveNoEmptyList, hasNoEmptyList_map f t,
        haveNoEmptyList_mapList f rest]

end

/-- A tree without an empty list has a leaf. -/
theorem labels_ne_nil : ∀ t : Tree α, t.hasNoEmptyList = true → t.labels ≠ []
  | leaf label negated, _ => List.cons_ne_nil label []
  | all (t :: rest) negated, nonempty => by
      rw [hasNoEmptyList, haveNoEmptyList, Bool.and_eq_true, Bool.and_eq_true] at nonempty
      rw [labels, labelsOf]
      exact List.append_ne_nil_of_left_ne_nil (labels_ne_nil t nonempty.2.1) _
  | any (t :: rest), nonempty => by
      rw [hasNoEmptyList, haveNoEmptyList, Bool.and_eq_true, Bool.and_eq_true] at nonempty
      rw [labels, labelsOf]
      exact List.append_ne_nil_of_left_ne_nil (labels_ne_nil t nonempty.2.1) _

end Tree

/-! ### Numbering -/

namespace QueryTree

open FacetQuery.Tree

mutual

/-- The registry that numbering leaves behind has seen the leaves, and nothing else. -/
theorem number_snd (r : Registry) : ∀ t : QueryTree, (number r t).2 = r.internAll t.labels
  | .leaf a negated => rfl
  | .all children negated => by
      rw [number, labels]
      exact numberList_snd r children
  | .any children => by
      rw [number, labels]
      exact numberList_snd r children

private theorem numberList_snd (r : Registry) :
    ∀ ts : List QueryTree, (numberList r ts).2 = r.internAll (labelsOf ts)
  | [] => rfl
  | t :: rest => by
      rw [numberList, labelsOf, Registry.internAll_append, ← number_snd r t]
      exact numberList_snd (number r t).2 rest

end

mutual

/-- **A numbered query is the query with every atom replaced by its number**, and the number
may be looked up in any registry that extends the one left behind: later atoms do not
disturb earlier ones. -/
theorem number_fst {r later : Registry} :
    ∀ t : QueryTree, later.Extends (number r t).2 →
      (number r t).1 = t.map later.atoms.idxOf
  | .leaf a negated, extended => by
      rw [map]
      change Tree.leaf (r.intern a).1 negated = _
      rw [Registry.intern_fst, extended.idxOf_eq (Registry.mem_atoms_intern.mpr (Or.inr rfl))]
      rfl
  | .all children negated, extended => by
      rw [number, map]
      exact congrArg (Tree.all · negated) (numberList_fst children extended)
  | .any children, extended => by
      rw [number, map]
      exact congrArg Tree.any (numberList_fst children extended)

private theorem numberList_fst {r later : Registry} :
    ∀ ts : List QueryTree, later.Extends (numberList r ts).2 →
      (numberList r ts).1 = mapList later.atoms.idxOf ts
  | [], _ => rfl
  | t :: rest, extended => by
      have restExtends : (numberList (number r t).2 rest).2.Extends (number r t).2 := by
        rw [numberList_snd]
        exact Registry.extends_internAll _ _
      rw [numberList, mapList]
      change (number r t).1 :: (numberList (number r t).2 rest).1 = _
      rw [number_fst t (extended.trans restExtends), numberList_fst rest extended]

end

/-- The registry of a query in normal form. -/
theorem registry_normalize (t : QueryTree) :
    t.normalize.registry = Registry.empty.internAll t.labels :=
  number_snd Registry.empty t

/-- The atoms that are numbered are those at the leaves. -/
theorem mem_registry_normalize {t : QueryTree} {a : Atom} :
    a ∈ t.normalize.registry.atoms ↔ a ∈ t.labels := by
  rw [registry_normalize, Registry.mem_atoms_internAll, Registry.atoms_empty]
  simp

/-- As many atoms are registered as the query has distinct atoms. -/
theorem size_registry_normalize (t : QueryTree) :
    t.normalize.registry.size = t.labels.dedup.length := by
  refine List.Perm.length_eq ?_
  refine (List.perm_ext_iff_of_nodup t.normalize.registry.nodup (List.nodup_dedup _)).mpr ?_
  intro a
  rw [List.mem_dedup, mem_registry_normalize]

/-- The formula of a query in normal form writes the query with numbers for atoms. -/
theorem formula_normalize (t : QueryTree) :
    t.normalize.formula =
      String.ofList (formulaText (t.map t.normalize.registry.atoms.idxOf)) := by
  have numbered := number_fst (r := Registry.empty) t (Registry.Extends.refl _)
  exact congrArg (fun numbered => String.ofList (formulaText numbered)) numbered

end QueryTree
end FacetQuery
