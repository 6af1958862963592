import FacetQuery.Proofs.Implicant.Merging
import FacetQuery.Proofs.Implicant.Paths

/-!
# The readings of an implicant

There are three ways to ask an implicant about a row: compare its two words with the row
(`covers`), go through the variables and ask what it says of each (`literal`), or evaluate the
path that it is written as (`toPath`).  This module proves that they always give the same answer
(`Built.readings_agree`).

### What is load-bearing

* Well-formedness, and only it.  An open variable with a value would make `covers` refuse every
  row, while the other two readings do not see it at all; a variable forced beyond the number of
  variables would count for `covers` and be missing from the path.
* No function checks well-formedness.  It has to be kept by everything that makes an implicant:
  a row, a merge, and both members of a pair of `upperNeighbours`.  `Built` lists these ways, with
  up to 64 variables, so that the whole word may be in use.  Nothing more than well-formedness
  could be kept, because every well-formed implicant can be built (`built_iff`).
* Two implicants that merge give the opposite value to one variable, so they have no row in
  common, and what they merge into has the rows of both (`SplitsInto`).
-/

namespace FacetQuery

/-- Whether a variable may have a value, by what an implicant says of it. -/
def Ternary.admits : Ternary → Bool → Bool
  | .forcedTrue, b => b
  | .forcedFalse, b => !b
  | .open, _ => true

namespace Implicant

variable {p q m : Implicant} {row : Assignment} {v : Nat}

/-! ### Reading single variables -/

/-- An implicant admits every value of an open variable and one value of a forced one. -/
theorem WellFormed.admits_literal_iff (wf : p.WellFormed) {b : Bool} :
    (p.literal v).admits b = true ↔ (p.forces v = true → b = p.value.getLsbD v) := by
  rw [wf.literal_eq]
  cases p.forces v with
  | true => cases p.value.getLsbD v <;> simp [Ternary.admits]
  | false => exact iff_of_true rfl (absurd · Bool.false_ne_true)

/-- **An implicant covers the rows of which it admits every value.** -/
theorem WellFormed.covers_iff_admits (wf : p.WellFormed) :
    p.covers row = true ↔ ∀ v, (p.literal v).admits (row.value v) = true := by
  rw [wf.covers_iff]
  exact forall_congr' fun v => wf.admits_literal_iff.symm

/-! ### The path -/

/-- The path of an implicant names its variables in strictly ascending order. -/
theorem WellFormed.pairwise_var_toPath (wf : p.WellFormed) :
    (p.toPath.literals.map Literal.var).Pairwise (· < ·) := by
  rw [var_literals_toPath wf]
  exact List.pairwise_lt_range.filter _

/-! ### Merging -/

/-- The rows of the first implicant are divided among the other two: each row belongs to exactly
one of them. -/
structure SplitsInto (m p q : Implicant) : Prop where
  covers_iff : ∀ row, m.covers row = true ↔ p.covers row = true ∨ q.covers row = true
  disjoint : ∀ row, ¬ (p.covers row = true ∧ q.covers row = true)

/-- An implicant with a variable left open splits by the value of this variable. -/
theorem WellFormed.leaveOpen_splitsInto (wf : p.WellFormed) (hv : p.forces v = true) :
    (p.leaveOpen v).SplitsInto p (p.flip v) := by
  refine ⟨fun row => wf.covers_leaveOpen_iff hv, fun row ⟨hp, hflip⟩ => ?_⟩
  -- A row of both would have the forced value of the variable and the opposite one.
  have here := wf.covers_iff.mp hp v hv
  have there := (wf.flip hv).covers_iff.mp hflip v hv
  rw [value_flip p (lt_of_forces hv), decide_eq_true rfl, Bool.xor_true, here] at there
  exact Bool.not_ne_self _ there.symm

/-- **What two implicants merge into splits into the two.** -/
theorem WellFormed.splitsInto_of_merge? (hp : p.WellFormed) (hq : q.WellFormed)
    (h : p.merge? q = some m) : m.SplitsInto p q := by
  obtain ⟨v, hv, rfl, rfl⟩ := (hp.merge?_eq_some_iff hq).mp h
  exact hp.leaveOpen_splitsInto hv

/-! ### How implicants are built -/

theorem WellFormed.merge? (hp : p.WellFormed) (hq : q.WellFormed) (h : p.merge? q = some m) :
    m.WellFormed := by
  obtain ⟨v, -, -, rfl⟩ := (hp.merge?_eq_some_iff hq).mp h
  exact hp.leaveOpen v

theorem WellFormed.of_mem_upperNeighbours (hp : p.WellFormed) (h : (q, m) ∈ p.upperNeighbours) :
    q.WellFormed ∧ m.WellFormed := by
  obtain ⟨v, hfalse, rfl, rfl⟩ := hp.mem_upperNeighbours_iff.mp h
  exact ⟨hp.flip (forcesFalse_iff.mp hfalse).1, hp.leaveOpen v⟩

/-- The implicants that can be made from rows of at most 64 variables. -/
inductive Built : Implicant → Prop where
  | row (r : Assignment) {n : Nat} (hn : n ≤ 64) : Built (ofRow r n)
  | merge {p q m : Implicant} (hp : Built p) (hq : Built q) (h : p.merge? q = some m) : Built m
  | partner {p q m : Implicant} (hp : Built p) (h : (q, m) ∈ p.upperNeighbours) : Built q
  | merged {p q m : Implicant} (hp : Built p) (h : (q, m) ∈ p.upperNeighbours) : Built m

/-- **Whatever is built is well formed.** -/
theorem Built.wellFormed (h : p.Built) : p.WellFormed := by
  induction h with
  | row r _ => exact wellFormed_ofRow r _
  | merge _ _ h hp hq => exact hp.merge? hq h
  | partner _ h hp => exact (hp.of_mem_upperNeighbours h).1
  | merged _ h hp => exact (hp.of_mem_upperNeighbours h).2

theorem Built.numVars_le (h : p.Built) : p.numVars ≤ 64 := by
  induction h with
  | row _ hn => exact hn
  | merge _ _ h hp _ =>
      obtain ⟨v, -, -, rfl⟩ := merge?_eq_some_iff.mp h
      exact hp
  | partner _ h hp | merged _ h hp =>
      obtain ⟨v, -, -, hpair⟩ := mem_upperNeighbours.mp h
      obtain ⟨rfl, rfl⟩ := Prod.mk.inj hpair
      exact hp

/-- Every well-formed implicant can be built, by opening one variable after the other. -/
theorem WellFormed.built (wf : p.WellFormed) (hn : p.numVars ≤ 64) : p.Built := by
  induction hopen : p.numVars - p.literalCount generalizing p with
  | zero =>
      have all : p.literalCount = p.numVars := by
        have := wf.literalCount_le
        omega
      rw [wf.eq_ofRow hn all]
      exact .row p.value hn
  | succ k ih =>
      obtain ⟨v, hv, isOpen⟩ := exists_open (p := p) (n := p.numVars) (by omega)
      have hword : v < 64 := by omega
      -- Before the last variable was opened it was forced, to be false say.
      have hopened : (p.forceFalse v).leaveOpen v = p := wf.leaveOpen_forceFalse hword isOpen
      have wfBefore : (p.forceFalse v).WellFormed := wf.forceFalse hv hword
      have hforces : (p.forceFalse v).forces v = true := by
        rw [forces_forceFalse p hword, decide_eq_true rfl, Bool.or_true]
      have hfalse : (p.forceFalse v).forcesFalse v = true :=
        forcesFalse_iff.mpr ⟨hforces, wf.value_of_open isOpen⟩
      have hcount : p.literalCount + 1 = (p.forceFalse v).literalCount := by
        rw [← literalCount_leaveOpen hforces, hopened]
      have before : (p.forceFalse v).Built :=
        ih wfBefore hn (by rw [numVars_forceFalse]; omega)
      exact before.merged (wfBefore.mem_upperNeighbours_iff.mpr ⟨v, hfalse, rfl, hopened⟩)

/-- **The implicants that can be built are the well-formed ones**, over at most 64 variables. -/
theorem built_iff : p.Built ↔ p.WellFormed ∧ p.numVars ≤ 64 :=
  ⟨fun h => ⟨h.wellFormed, h.numVars_le⟩, fun ⟨wf, hn⟩ => wf.built hn⟩

/-! ### All readings together -/

/-- The two words are well formed, and the implicant means the same in every reading. -/
structure Coherent (p : Implicant) : Prop where
  /-- Only forced variables have a value. -/
  care_of_value : ∀ v, p.value.getLsbD v = true → p.care.getLsbD v = true
  /-- Only the first variables are forced. -/
  lt_of_care : ∀ v, p.care.getLsbD v = true → v < p.numVars
  covers_eq_holds : ∀ row, p.covers row = p.toPath.holds row
  covers_iff_admits : ∀ row, p.covers row = true ↔ ∀ v, (p.literal v).admits (row.value v) = true
  literalCount_eq : p.literalCount = p.toPath.literals.length
  ascending : (p.toPath.literals.map Literal.var).Pairwise (· < ·)

theorem WellFormed.coherent (wf : p.WellFormed) : p.Coherent where
  care_of_value := (wellFormed_iff.mp wf).1
  lt_of_care := (wellFormed_iff.mp wf).2
  covers_eq_holds row := (holds_toPath wf row).symm
  covers_iff_admits _ := wf.covers_iff_admits
  literalCount_eq := (length_toPath wf).symm
  ascending := wf.pairwise_var_toPath

/-- **Implicants stay well formed and mean the same in every reading**, however they are built:
the comparison of words, the value of each variable and the path agree on every row, the path has
a literal for each forced variable, in strictly ascending order, and two implicants that merge
split between them the rows of what they merge into. -/
theorem Built.readings_agree (hp : p.Built) :
    p.Coherent ∧ ∀ q m, q.Built → p.merge? q = some m → m.SplitsInto p q :=
  ⟨hp.wellFormed.coherent,
    fun _ _ hq h => hp.wellFormed.splitsInto_of_merge? hq.wellFormed h⟩

/-- Over all 64 variables, an implicant that leaves the last one open and one that is the same but
for the first variable.  They are made in all ways there are, and they merge. -/
theorem Built.readings_agree_of_last_variable :
    let p : Implicant := ⟨0x7FFFFFFFFFFFFFFF, 0, 64⟩
    let q : Implicant := ⟨0x7FFFFFFFFFFFFFFF, 1, 64⟩
    let m : Implicant := ⟨0x7FFFFFFFFFFFFFFE, 0, 64⟩
    p.Built ∧ q.Built ∧ p.merge? q = some m ∧ p.Coherent ∧ m.SplitsInto p q := by
  intro p q m
  have lower : (ofRow 0x8000000000000000 64, p) ∈ (ofRow 0 64).upperNeighbours :=
    mem_upperNeighbours.mpr ⟨63, by decide +kernel⟩
  have upper : (ofRow 0x8000000000000001 64, q) ∈ (ofRow 1 64).upperNeighbours :=
    mem_upperNeighbours.mpr ⟨63, by decide +kernel⟩
  have hlow : Built (ofRow 1 64) := .row 1 (Nat.le_refl 64)
  have hp : p.Built := .merged (.row 0 (Nat.le_refl 64)) lower
  have hq : q.Built := .merge (.partner hlow upper) hlow (by decide +kernel)
  have hmerge : p.merge? q = some m := by decide +kernel
  obtain ⟨coherent, splits⟩ := hp.readings_agree
  exact ⟨hp, hq, hmerge, coherent, splits q m hq hmerge⟩

end Implicant
end FacetQuery
