import Mathlib.Data.List.Forall2
import Mathlib.Data.List.Induction
import FacetQuery.Proofs.Formula.Lexing
import FacetQuery.Proofs.Query.Numbering

/-!
# Numbers in the order of first occurrence

A registry hands out numbers while it grows.  Whatever atoms are registered, one call after the
other, the outcome is the same simple table (`FirstSeen`): the registry lists the distinct atoms
in the order of their first occurrence, every call returns the number that its atom has in the
end, the numbers are those below the size of the registry, and a number that is returned for the
first time is one more than the largest one before it.  Number and atom determine each other, and
no call disturbs the number of an atom that is there (`first_seen_bijection`).

The same is true of the formula of a query, read as a text: the numbers in it are the ones that
the calls for the leaves return (`numbersIn_formula_normalize`), because between two numerals
there is always a sign or a parenthesis.

### What is load-bearing

A number below the size belongs to an atom that has been registered before.  So at any time the
numbers returned so far are exactly those below the size of the registry at that time, which is
the next number (`mem_internIds_iff`); their order follows from this alone
(`max?_elim_of_forall_mem_iff`).
-/

namespace FacetQuery

/-! ### The same atom -/

/-- Whether two values are the same as parts of an atom: of the same kind and with the same
content, and doubles with the same bit pattern. -/
def Value.Same : Value → Value → Prop
  | .bool b, .bool c => b = c
  | .int i, .int k => i = k
  | .float x, .float y => x.bits = y.bits
  | .text s, .text t => s = t
  | .date d, .date e => d = e
  | _, _ => False

/-- Whether two atoms are the same: they have the same property, and the same values in the same
order. -/
def Atom.Same (a b : Atom) : Prop :=
  a.property = b.property ∧ List.Forall₂ Value.Same a.values b.values

theorem Value.same_iff {v w : Value} : v.Same w ↔ v = w := by
  have bits (x y : Binary64) : x.bits = y.bits ↔ x = y := by
    cases x
    cases y
    rw [Binary64.mk.injEq]
  cases v <;> cases w <;> simp [Same, bits]

theorem Atom.same_iff {a b : Atom} : a.Same b ↔ a = b := by
  have values : List.Forall₂ Value.Same a.values b.values ↔ a.values = b.values := by
    have same : Value.Same = Eq := by
      funext v w
      exact propext Value.same_iff
    rw [same, List.forall₂_eq_eq_eq]
  cases a
  cases b
  rw [Same, values, Atom.mk.injEq]

/-! ### Tables -/

namespace Registry

variable {r : Registry} {a b : Atom} {id : Nat}

/-- **Number and atom determine each other**: this is what the two tables carry. -/
theorem idOf?_eq_some_iff : r.idOf? a = some id ↔ r.atom? id = some a :=
  r.inverse a id

/-- The numbers in use are those below the size. -/
theorem exists_idOf?_eq_some_iff : (∃ a, r.idOf? a = some id) ↔ id < r.size := by
  simp only [idOf?_eq_some_iff]
  constructor
  · rintro ⟨a, h⟩
    exact (List.getElem?_eq_some_iff.mp h).1
  · exact fun below => ⟨_, List.getElem?_eq_getElem below⟩

theorem idOf?_eq_none_iff : r.idOf? a = none ↔ a ∉ r.atoms := by
  rw [← mem_ids_iff, Std.HashMap.mem_iff_isSome_getElem?, Bool.not_eq_true, Option.isSome_eq_false_iff,
    Option.isNone_iff_eq_none, idOf?]

/-- A new atom gets the next number. -/
theorem intern_fst_of_new (new : a ∉ r.atoms) : (r.intern a).1 = r.size := by
  rw [← mem_ids_iff] at new
  rw [intern, dif_neg new]

/-- **No call disturbs the number of an atom that is there.** -/
theorem Extends.idOf?_eq {later earlier : Registry} (h : later.Extends earlier)
    (found : earlier.idOf? a = some id) : later.idOf? a = some id := by
  rw [idOf?_eq_some_iff] at found ⊢
  obtain ⟨behind, split⟩ := h
  rw [atom?, ← split, List.getElem?_append_left (List.getElem?_eq_some_iff.mp found).1]
  exact found

/-- The atom has the number that its call returns. -/
theorem idOf?_intern (r : Registry) (a : Atom) :
    (r.intern a).2.idOf? a = some (r.intern a).1 := by
  rw [idOf?_eq_some (mem_atoms_intern.mpr (Or.inr rfl)), intern_fst]

/-- **A call returns the number of a registered atom for the same atom only.** -/
theorem intern_fst_eq_iff (found : r.idOf? a = some id) : (r.intern b).1 = id ↔ a.Same b := by
  have later := (extends_intern r b).idOf?_eq found
  rw [Atom.same_iff]
  constructor
  · rintro rfl
    have back := idOf?_intern r b
    rw [idOf?_eq_some_iff] at back later
    rw [back] at later
    exact (Option.some.inj later).symm
  · rintro rfl
    rw [intern_of_idOf?_eq_some found]

/-! ### Calls one after the other -/

/-- The numbers that are returned when the atoms of a list are registered one after the other. -/
def internIds (r : Registry) : List Atom → List Nat
  | [] => []
  | a :: rest => (r.intern a).1 :: internIds (r.intern a).2 rest

/-- Every call returns the position that its atom has in the end. -/
theorem internIds_eq_map {later : Registry} (r : Registry) (atoms : List Atom)
    (h : later.Extends (r.internAll atoms)) :
    r.internIds atoms = atoms.map later.atoms.idxOf := by
  induction atoms generalizing r with
  | nil => rfl
  | cons a atoms ih =>
      have kept : later.Extends (r.intern a).2 :=
        h.trans (extends_internAll (r.intern a).2 atoms)
      rw [internIds, List.map_cons, ih (r.intern a).2 h, intern_fst,
        kept.idxOf_eq (mem_atoms_intern.mpr (Or.inr rfl))]

/-- Every call returns the number that its atom has in the end. -/
theorem map_some_internIds {later : Registry} (r : Registry) (atoms : List Atom)
    (h : later.Extends (r.internAll atoms)) :
    (r.internIds atoms).map some = atoms.map later.idOf? := by
  rw [internIds_eq_map r atoms h, List.map_map]
  exact List.map_congr_left fun a ha =>
    (idOf?_eq_some (List.IsPrefix.subset h (mem_atoms_internAll.mpr (Or.inr ha)))).symm

/-- **The registry lists the distinct atoms in the order of their first occurrence.** -/
theorem atoms_internAll_empty (atoms : List Atom) :
    (empty.internAll atoms).atoms = atoms.eraseDups := by
  induction atoms using List.reverseRecOn with
  | nil => rfl
  | append_singleton atoms a ih =>
      rw [internAll_append, List.eraseDups_append]
      change ((empty.internAll atoms).intern a).2.atoms = _
      rw [atoms_intern, ih]
      by_cases seen : a ∈ atoms
      · rw [if_pos (List.mem_eraseDups.mpr seen)]
        simp [List.removeAll, seen]
      · rw [if_neg (mt List.mem_eraseDups.mp seen)]
        simp [List.removeAll, seen, List.eraseDups_cons]

/-- **The numbers returned are exactly those below the size of the registry.** -/
theorem mem_internIds_iff (atoms : List Atom) :
    id ∈ empty.internIds atoms ↔ id < (empty.internAll atoms).size := by
  have numbered := map_some_internIds empty atoms (Extends.refl _)
  have found : id ∈ empty.internIds atoms ↔
      ∃ a ∈ atoms, (empty.internAll atoms).idOf? a = some id := by
    rw [← List.mem_map, ← numbered]
    simp
  rw [found, ← exists_idOf?_eq_some_iff]
  refine exists_congr fun a => and_iff_right_of_imp fun h => ?_
  by_contra absent
  rw [idOf?_eq_none_iff.mpr (by simpa [mem_atoms_internAll] using absent)] at h
  cases h

/-- A number that is returned is returned by the call for one of the atoms, after the calls for the
atoms in front of it. -/
theorem exists_of_internIds_eq {atoms : List Atom} {before behind : List Nat}
    (split : r.internIds atoms = before ++ id :: behind) :
    ∃ as a, r.internIds as = before ∧ ((r.internAll as).intern a).1 = id := by
  induction before generalizing r atoms with
  | nil =>
      cases atoms with
      | nil => cases split
      | cons a atoms =>
          rw [internIds, List.nil_append, List.cons.injEq] at split
          exact ⟨[], a, rfl, split.1⟩
  | cons first before ih =>
      cases atoms with
      | nil => cases split
      | cons b atoms =>
          rw [internIds, List.cons_append, List.cons.injEq] at split
          obtain ⟨as, a, rfl, returned⟩ := ih split.2
          exact ⟨b :: as, a, by rw [internIds, split.1], returned⟩

end Registry

/-! ### First occurrences -/

/-- The numbers below a bound, in any order, have the bound behind the largest of them. -/
theorem max?_elim_of_forall_mem_iff {ids : List Nat} {bound : Nat}
    (h : ∀ id, id ∈ ids ↔ id < bound) : ids.max?.elim 0 (· + 1) = bound := by
  cases hmax : ids.max? with
  | none =>
      rw [List.max?_eq_none_iff] at hmax
      subst hmax
      simpa [eq_comm] using h 0
  | some largest =>
      obtain ⟨mem, least⟩ := List.max?_eq_some_iff.mp hmax
      have below := (h largest).mp mem
      have above : ¬ largest + 1 < bound := fun lt =>
        Nat.lt_irrefl _ (least _ ((h (largest + 1)).mpr lt))
      rw [Option.elim]
      omega

/-- **The outcome of registering atoms one after the other**: the registry and the numbers that
were returned. -/
structure FirstSeen (atoms : List Atom) (ids : List Nat) (r : Registry) : Prop where
  /-- The registry lists the distinct atoms in the order of their first occurrence. -/
  listed : r.atoms = atoms.eraseDups
  numbered : ids.map some = atoms.map r.idOf?
  /-- The numbers are exactly those below the size of the registry. -/
  dense : ∀ id, id ∈ ids ↔ id < r.size
  /-- A new number is one more than the largest one before it, and the first one is `0`. -/
  ordered : ∀ before id behind, ids = before ++ id :: behind → id ∉ before →
    id = before.max?.elim 0 (· + 1)

/-- A number that is returned for the first time is the next one. -/
theorem eq_max?_elim_of_internIds {atoms : List Atom} {before behind : List Nat} {id : Nat}
    (split : Registry.empty.internIds atoms = before ++ id :: behind) (new : id ∉ before) :
    id = before.max?.elim 0 (· + 1) := by
  obtain ⟨as, a, rfl, rfl⟩ := Registry.exists_of_internIds_eq split
  have returned : ∀ id, id ∈ Registry.empty.internIds as ↔
      id < (Registry.empty.internAll as).size := fun _ => Registry.mem_internIds_iff as
  rw [returned] at new
  rw [max?_elim_of_forall_mem_iff returned]
  refine Registry.intern_fst_of_new fun registered => new ?_
  rw [Registry.intern_of_idOf?_eq_some (Registry.idOf?_eq_some registered)]
  exact Registry.idxOf_lt_size registered

theorem firstSeen_internAll (atoms : List Atom) :
    FirstSeen atoms (Registry.empty.internIds atoms) (Registry.empty.internAll atoms) where
  listed := Registry.atoms_internAll_empty atoms
  numbered := Registry.map_some_internIds _ _ (Registry.Extends.refl _)
  dense _ := Registry.mem_internIds_iff atoms
  ordered _ _ _ split new := eq_max?_elim_of_internIds split new

/-! ### The numbers in a formula -/

namespace Text

/-- **The numbers in a text**, from left to right: the values of the longest sequences of digits. -/
def numbersIn (cs : List Char) : List Nat :=
  ((cs.splitOnP fun c => !c.isDigit).filter fun digits => !digits.isEmpty).map numeralValue

theorem numbersIn_nil : numbersIn [] = [] := rfl

/-- A character that is no digit separates numbers. -/
theorem numbersIn_append_cons {c : Char} (noDigit : c.isDigit = false) (cs ds : List Char) :
    numbersIn (cs ++ c :: ds) = numbersIn cs ++ numbersIn ds := by
  have separates : (!c.isDigit) = true := by rw [noDigit]; rfl
  rw [numbersIn, List.splitOnP_append_cons (p := fun c => !c.isDigit) cs ds separates,
    List.filter_append, List.map_append]
  rfl

theorem numbersIn_cons {c : Char} (noDigit : c.isDigit = false) (cs : List Char) :
    numbersIn (c :: cs) = numbersIn cs :=
  numbersIn_append_cons noDigit [] cs

theorem numbersIn_numeral (n : Nat) : numbersIn (numeral n) = [n] := by
  have digits : ∀ c ∈ numeral n, (!c.isDigit) = false := by
    intro c hc
    rw [isDigit_of_mem_numeral hc]
    rfl
  rw [numbersIn, List.splitOnP_eq_singleton digits]
  simp [numeral_ne_nil, numeralValue_numeral]

end Text

namespace QueryTree

open Text

theorem numbersIn_negationSign (negated : Bool) (cs : List Char) :
    numbersIn (negationSign negated ++ cs) = numbersIn cs := by
  cases negated with
  | false => rfl
  | true => exact numbersIn_cons rfl cs

/-- Parentheses separate numbers and are none. -/
theorem numbersIn_parentheses (cs : List Char) :
    numbersIn ('(' :: cs ++ [')']) = numbersIn cs := by
  rw [List.cons_append, numbersIn_cons rfl, numbersIn_append_cons rfl, numbersIn_nil,
    List.append_nil]

mutual

/-- **The numbers in the formula of a tree are its labels.** -/
theorem numbersIn_formulaText : ∀ t : Tree Nat, numbersIn (formulaText t) = t.labels
  | .leaf id negated => by
      rw [formulaText, numbersIn_negationSign, numbersIn_numeral, Tree.labels]
  | .all children negated => by
      rw [formulaText, List.append_assoc, numbersIn_negationSign, numbersIn_parentheses,
        numbersIn_joinedText rfl children, Tree.labels]
  | .any children => by
      rw [formulaText, numbersIn_parentheses, numbersIn_joinedText rfl children, Tree.labels]

private theorem numbersIn_joinedText {sign : Char} (noDigit : sign.isDigit = false) :
    ∀ ts : List (Tree Nat), numbersIn (joinedText sign ts) = Tree.labelsOf ts
  | [] => rfl
  | t :: rest => by
      rw [joinedText, Tree.labelsOf, numbersIn_append_behindText noDigit rest,
        numbersIn_formulaText t]

-- The text in front ends with a numeral, so the first sign has to be taken off together with it.
private theorem numbersIn_append_behindText {sign : Char} (noDigit : sign.isDigit = false)
    {cs : List Char} :
    ∀ ts : List (Tree Nat),
      numbersIn (cs ++ behindText sign ts) = numbersIn cs ++ Tree.labelsOf ts
  | [] => by rw [behindText, Tree.labelsOf, List.append_nil, List.append_nil]
  | t :: rest => by
      rw [behindText, List.cons_append, numbersIn_append_cons noDigit,
        numbersIn_append_behindText noDigit rest, numbersIn_formulaText t, Tree.labelsOf]

end

/-- **The numbers in the formula of a query** are those that the calls for its leaves return. -/
theorem numbersIn_formula_normalize (t : QueryTree) :
    numbersIn t.normalize.formula.toList = Registry.empty.internIds t.labels := by
  have numbered := Registry.internIds_eq_map Registry.empty t.labels (Registry.Extends.refl _)
  rw [← registry_normalize] at numbered
  rw [formula_normalize, String.toList_ofList, numbersIn_formulaText, Tree.labels_map, numbered]

end QueryTree

/-! ### The registry is a bijection -/

namespace Registry

open Text

/-- **The registry is a first-seen bijection.**  After calls for any atoms, one after the other, the
registry lists the distinct atoms in the order of their first occurrence, and the numbers returned
are those below its size, each of them the next one when it comes for the first time
(`FirstSeen`).  Number and atom determine each other.  A further call leaves the number of every
registered atom as it is, returns this number for the same atom and for no other, and then changes
nothing.  And for every query the registry of its normal form and the numbers in the text of its
formula are what the calls for its leaves would have made of them. -/
theorem first_seen_bijection :
    (∀ atoms : List Atom,
      let r := empty.internAll atoms
      FirstSeen atoms (empty.internIds atoms) r ∧
        (∀ a id, r.idOf? a = some id ↔ r.atom? id = some a) ∧
        (∀ id, (∃ a, r.atom? id = some a) ↔ id < r.size) ∧
        ∀ a id, r.idOf? a = some id → ∀ b,
          (r.intern b).2.idOf? a = some id ∧
            ((r.intern b).1 = id ↔ a.Same b) ∧
            (a.Same b → (r.intern b).2 = r)) ∧
      ∀ t : QueryTree,
        FirstSeen t.labels (numbersIn t.normalize.formula.toList) t.normalize.registry := by
  constructor
  · intro atoms r
    refine ⟨firstSeen_internAll atoms, fun a id => idOf?_eq_some_iff, fun id => ?_,
      fun a id found b => ⟨(extends_intern r b).idOf?_eq found, intern_fst_eq_iff found, ?_⟩⟩
    · simp only [← idOf?_eq_some_iff]
      exact exists_idOf?_eq_some_iff
    · intro same
      rw [← Atom.same_iff.mp same, intern_of_idOf?_eq_some found]
  · intro t
    rw [QueryTree.numbersIn_formula_normalize, QueryTree.registry_normalize]
    exact firstSeen_internAll t.labels

/-- Atoms that differ in the sign of a zero or in the order of their values only, some of them
repeated, and a query with a repeated leaf. -/
theorem first_seen_bijection_of_signed_zeros :
    let zero : Atom := ⟨"size", [.float ⟨0⟩]⟩
    let minusZero : Atom := ⟨"size", [.float ⟨0x8000000000000000⟩]⟩
    let cities : Atom := ⟨"city", [.text "Elgin", .text "Peoria"]⟩
    let swapped : Atom := ⟨"city", [.text "Peoria", .text "Elgin"]⟩
    let atoms := [zero, cities, zero, minusZero, swapped, cities]
    let r := empty.internAll atoms
    let t : QueryTree := .all [.leaf cities true, .any [.leaf zero false, .leaf cities false],
      .leaf minusZero false] true
    empty.internIds atoms = [0, 1, 0, 2, 3, 1] ∧ FirstSeen atoms [0, 1, 0, 2, 3, 1] r ∧
      r.atom? 2 = some minusZero ∧ (∀ id, (∃ a, r.atom? id = some a) ↔ id < r.size) ∧
      r.idOf? cities = some 1 ∧ (r.intern swapped).2.idOf? cities = some 1 ∧
      ((r.intern swapped).1 = 1 ↔ cities.Same swapped) ∧
      t.normalize.formula = "!(!0&(1|0)&2)" ∧
      FirstSeen t.labels (numbersIn "!(!0&(1|0)&2)".toList) t.normalize.registry := by
  intro zero minusZero cities swapped atoms r t
  obtain ⟨calls, queries⟩ := first_seen_bijection
  obtain ⟨seen, inverse, used, stable⟩ := calls atoms
  have listed : r.atoms = [zero, cities, minusZero, swapped] :=
    seen.listed.trans (by decide +kernel)
  have ids : empty.internIds atoms = [0, 1, 0, 2, 3, 1] := by
    rw [internIds_eq_map empty atoms (Extends.refl _), listed]
    decide +kernel
  have third : r.atom? 2 = some minusZero := by
    rw [atom?, listed]
    rfl
  have found : r.idOf? cities = some 1 := by
    rw [inverse, atom?, listed]
    rfl
  obtain ⟨kept, returned, -⟩ := stable cities 1 found swapped
  have leaves : t.normalize.registry.atoms = [cities, zero, minusZero] :=
    (queries t).listed.trans (by decide +kernel)
  have formula : t.normalize.formula = "!(!0&(1|0)&2)" := by
    rw [QueryTree.formula_normalize, leaves]
    decide +kernel
  refine ⟨ids, ids ▸ seen, third, used, found, kept, returned, formula, ?_⟩
  rw [← formula]
  exact queries t

end Registry
end FacetQuery
