import FacetQuery.Path

/-!
# Implicants

An implicant forces some variables to a value and leaves the others open.  It is kept in
two fields of 64 bits: `care` has the bits of the forced variables, and `value` the bits
of those that are forced to be true.

Implicants are built in three ways: from one row of a truth table, which forces every
variable; by `merge`, which opens the one variable in which two implicants differ; and
by `upperNeighbours`, which goes through the variables forced to be false.  All of them
keep `value` inside `care` and `care` below the number of variables (`WellFormed`).
-/

namespace FacetQuery

inductive Ternary where
  | forcedTrue
  | forcedFalse
  | open
deriving DecidableEq

/-- A partial assignment of the first variables, in two words: `care` has the bits of the
variables that are forced, and `value` the bits of those that are forced to be true. -/
structure Implicant where
  care : BitVec 64
  value : BitVec 64
  numVars : Nat
deriving DecidableEq, Hashable

namespace Implicant

/-- The bits of the first variables.  The shift is from above, so that it is right for all 64
variables too. -/
def lowBits (numVars : Nat) : BitVec 64 :=
  BitVec.allOnes 64 >>> (64 - numVars)

/-- No open variable has a value, and no variable beyond the first ones is forced. -/
def WellFormed (p : Implicant) : Prop :=
  p.value &&& p.care = p.value ∧ p.care &&& lowBits p.numVars = p.care

instance (p : Implicant) : Decidable p.WellFormed :=
  inferInstanceAs (Decidable (_ ∧ _))

/-- The implicant that holds in one row of a truth table only; bits beyond the number of
variables are ignored. -/
def ofRow (row : Assignment) (numVars : Nat) : Implicant :=
  ⟨lowBits numVars, row &&& lowBits numVars, numVars⟩

def forces (p : Implicant) (v : Nat) : Bool :=
  p.care.getLsbD v

/-- What the implicant says of a variable. -/
def literal (p : Implicant) (v : Nat) : Ternary :=
  if p.numVars ≤ v then .open
  else if p.forces v then
    if p.value.getLsbD v then .forcedTrue else .forcedFalse
  else .open

def covers (p : Implicant) (row : Assignment) : Bool :=
  row &&& p.care == p.value

def literalCount (p : Implicant) : Nat :=
  (List.range 64).countP p.forces

/-- The bits of the variables 0 to 63, made once. -/
def bits : Array (BitVec 64) :=
  Array.ofFn fun v : Fin 64 => BitVec.twoPow 64 v

def bit (v : Nat) : BitVec 64 :=
  bits[v]?.getD 0

theorem bit_eq_twoPow (v : Nat) : bit v = BitVec.twoPow 64 v := by
  by_cases h : v < 64
  · simp [bit, bits, h]
  · have : BitVec.twoPow 64 v = 0 := by
      apply BitVec.eq_of_getLsbD_eq
      intro i hi
      simp only [BitVec.getLsbD_twoPow, BitVec.ofNat_eq_ofNat, BitVec.getLsbD_zero]
      grind
    simp [bit, bits, h, this]

/-- The implicant that forces a variable to the opposite value and is otherwise the same, for
a variable that is forced. -/
def flip (p : Implicant) (v : Nat) : Implicant :=
  { p with value := p.value ^^^ bit v }

/-- The implicant that leaves a variable open and is otherwise the same, for a variable that
was forced to be false. -/
def relax (p : Implicant) (v : Nat) : Implicant :=
  { p with care := p.care ^^^ bit v }

def forcesFalse (p : Implicant) (v : Nat) : Bool :=
  p.forces v && !p.value.getLsbD v

/-- For every variable forced to be false, the implicant that forces it to be true instead, and
what the two of them merge into.  Each pair that merges is found from one of its sides only. -/
def upperNeighbours (p : Implicant) : List (Implicant × Implicant) :=
  ((List.range p.numVars).filter p.forcesFalse).map fun v => (p.flip v, p.relax v)

def difference (p q : Implicant) : BitVec 64 :=
  p.value ^^^ q.value

/-- What two implicants merge into that force the same variables and differ in exactly one
of them. -/
def merge? (p q : Implicant) : Option Implicant :=
  if p.care = q.care ∧ p.numVars = q.numVars ∧
      (List.range 64).countP (p.difference q).getLsbD = 1 then
    some ⟨p.care &&& ~~~p.difference q, p.value &&& ~~~p.difference q, p.numVars⟩
  else none

def literal? (p : Implicant) (v : Nat) : Option Literal :=
  match p.literal v with
  | .forcedTrue => some ⟨v, false⟩
  | .forcedFalse => some ⟨v, true⟩
  | .open => none

/-- The implicant as a path, with the variables in ascending order. -/
def toPath (p : Implicant) : Path :=
  ⟨(List.range p.numVars).filterMap p.literal?⟩

/-- The order of implicants: by `care`, by `value` and by the number of variables. -/
def compare (p q : Implicant) : Ordering :=
  (Ord.compare p.care.toNat q.care.toNat).then
    ((Ord.compare p.value.toNat q.value.toNat).then (Ord.compare p.numVars q.numVars))

def le (p q : Implicant) : Bool :=
  p.compare q != .gt

end Implicant
end FacetQuery
