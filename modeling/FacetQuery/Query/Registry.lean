import Std.Data.HashMap.Lemmas
import FacetQuery.Query.Tree

/-!
# Numbering atoms

A registry numbers atoms in the order in which they are first seen.  It is read in both
directions, from an atom to its number when a query is brought into normal form and from
a number to its atom when a cover is evaluated, so it keeps two tables: the atoms in
their order, and their numbers.

The tables are updated apart, and `Registry` carries the proof that each is the inverse
of the other.  It is the only thing that is known of them, and it is enough: no atom is
listed twice (`nodup`), an atom has a number exactly when it is listed (`mem_ids_iff`),
and a new atom gets the number of atoms before it (`intern`).

Two atoms are the same only when they have the same property and the same values in the
same order.
-/

namespace FacetQuery

/-- The atoms seen so far, the first one first, and the number of each. -/
structure Registry where
  atoms : List Atom
  ids : Std.HashMap Atom Nat
  inverse : ∀ (a : Atom) (id : Nat), ids[a]? = some id ↔ atoms[id]? = some a

namespace Registry

variable {r : Registry} {a : Atom}

def empty : Registry where
  atoms := []
  ids := ∅
  inverse a id := by simp

def size (r : Registry) : Nat :=
  r.atoms.length

def isEmpty (r : Registry) : Bool :=
  r.atoms.isEmpty

def idOf? (r : Registry) (a : Atom) : Option Nat :=
  r.ids[a]?

def atom? (r : Registry) (id : Nat) : Option Atom :=
  r.atoms[id]?

theorem mem_ids_iff : a ∈ r.ids ↔ a ∈ r.atoms := by
  rw [Std.HashMap.mem_iff_isSome_getElem?, Option.isSome_iff_exists, List.mem_iff_getElem?]
  exact exists_congr fun id => r.inverse a id

/-- No atom is listed twice, because it has one number only. -/
theorem nodup (r : Registry) : r.atoms.Nodup := by
  refine List.pairwise_iff_getElem.2 ?_
  intro i j hi hj hij same
  have first := (r.inverse _ i).2 (List.getElem?_eq_getElem hi)
  have second := (r.inverse _ j).2 (List.getElem?_eq_getElem hj)
  rw [same, second, Option.some.injEq] at first
  exact Nat.ne_of_gt hij first

/-- A new atom is written into both tables. -/
theorem inverse_push (r : Registry) (new : a ∉ r.ids) (b : Atom) (id : Nat) :
    (r.ids.insert a r.size)[b]? = some id ↔ (r.atoms ++ [a])[id]? = some b := by
  have unlisted : ∀ id, r.atoms[id]? ≠ some a := fun id listed =>
    new (mem_ids_iff.2 (List.mem_of_getElem? listed))
  rw [Std.HashMap.getElem?_insert, List.getElem?_append]
  by_cases same : a = b
  · subst same
    rw [if_pos (beq_self_eq_true a), Option.some.injEq]
    by_cases below : id < r.atoms.length
    · rw [if_pos below]
      exact ⟨fun h => absurd h (Nat.ne_of_gt below), fun h => absurd h (unlisted id)⟩
    · rw [if_neg below, List.getElem?_singleton]
      simp only [size]
      grind
  · rw [if_neg (mt eq_of_beq same), r.inverse b id]
    by_cases below : id < r.atoms.length
    · rw [if_pos below]
    · rw [if_neg below, List.getElem?_eq_none (Nat.not_lt.1 below), List.getElem?_singleton]
      grind

/-- The registry with one more atom, which gets the next number. -/
def push (r : Registry) (a : Atom) (new : a ∉ r.ids) : Registry where
  atoms := r.atoms ++ [a]
  ids := r.ids.insert a r.size
  inverse := r.inverse_push new

/-- The number of an atom, which is registered if it was not. -/
def intern (r : Registry) (a : Atom) : Nat × Registry :=
  if known : a ∈ r.ids then (r.ids[a], r) else (r.size, r.push a known)

@[simp] theorem atoms_empty : empty.atoms = [] := rfl

@[simp] theorem atoms_push (new : a ∉ r.ids) : (r.push a new).atoms = r.atoms ++ [a] := rfl

theorem atoms_intern (r : Registry) (a : Atom) :
    (r.intern a).2.atoms = if a ∈ r.atoms then r.atoms else r.atoms ++ [a] := by
  by_cases h : a ∈ r.atoms <;> simp [intern, mem_ids_iff, h]

/-- A listed atom is found, and nothing changes. -/
theorem intern_of_idOf?_eq_some {id : Nat} (found : r.idOf? a = some id) :
    r.intern a = (id, r) := by
  obtain ⟨known, rfl⟩ := Std.HashMap.getElem?_eq_some_iff.1 found
  rw [intern, dif_pos known]

end Registry
end FacetQuery
