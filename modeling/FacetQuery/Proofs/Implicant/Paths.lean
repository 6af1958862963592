import FacetQuery.Proofs.Formula.Meaning
import FacetQuery.Proofs.Implicant.Bits

/-!
# Implicants and paths

The two ways of writing a conjunction of literals: an implicant, of which there is one for each
conjunction, and a path, which may repeat literals and contradict itself.

An implicant becomes a path with the same rows and as many literals (`holds_toPath`,
`length_toPath`).  Conversely, a path that holds in some row becomes an implicant with the same
rows and at most as many literals (`ofPath`): the row in which it holds says to what its
variables are forced, so repeated literals collapse, and a contradictory path has no such row
and no implicant.
-/

namespace FacetQuery
namespace Implicant

variable {p : Implicant} {row : Assignment}

/-! ### From implicants to paths -/

/-- What a well-formed implicant says of a variable, no matter how many variables there are. -/
theorem WellFormed.literal_eq (wf : p.WellFormed) (v : Nat) :
    p.literal v =
      if p.forces v then if p.value.getLsbD v then .forcedTrue else .forcedFalse else .open := by
  rw [literal]
  by_cases hforces : p.forces v = true
  · have inside : ¬ p.numVars ≤ v := Nat.not_le.mpr (wf.lt_numVars hforces)
    rw [if_neg inside]
  · rw [if_neg hforces, ite_self]

theorem literal?_eq (wf : p.WellFormed) (v : Nat) :
    p.literal? v = if p.forces v then some ⟨v, !p.value.getLsbD v⟩ else none := by
  rw [literal?, wf.literal_eq]
  cases p.forces v <;> cases p.value.getLsbD v <;> rfl

theorem mem_literals_toPath (wf : p.WellFormed) {l : Literal} :
    l ∈ p.toPath.literals ↔ p.forces l.var = true ∧ l.negated = !p.value.getLsbD l.var := by
  rw [toPath, List.mem_filterMap]
  constructor
  · rintro ⟨v, -, found⟩
    rw [literal?_eq wf] at found
    split at found
    · rename_i hforces
      cases found
      exact ⟨hforces, rfl⟩
    · cases found
  · rintro ⟨hforces, hnegated⟩
    refine ⟨l.var, List.mem_range.mpr (wf.lt_numVars hforces), ?_⟩
    rw [literal?_eq wf, if_pos hforces, ← hnegated]

/-- **An implicant and its path hold in the same rows.** -/
theorem holds_toPath (wf : p.WellFormed) (row : Assignment) :
    p.toPath.holds row = p.covers row := by
  rw [Bool.eq_iff_iff, wf.covers_iff, Path.holds, List.all_eq_true]
  constructor
  · intro h v hv
    have := h ⟨v, !p.value.getLsbD v⟩ ((mem_literals_toPath wf).mpr ⟨hv, rfl⟩)
    rw [Literal.holds, bne_iff_ne, Assignment.value] at this
    simpa using this
  · intro h l hl
    obtain ⟨hforces, hnegated⟩ := (mem_literals_toPath wf).mp hl
    rw [Literal.holds, Assignment.value, h l.var hforces, hnegated]
    cases p.value.getLsbD l.var <;> rfl

/-- The variables of the path of an implicant, each once. -/
theorem var_literals_toPath (wf : p.WellFormed) :
    p.toPath.literals.map Literal.var = (List.range p.numVars).filter p.forces := by
  rw [toPath, List.map_filterMap, ← List.filterMap_eq_filter]
  refine List.filterMap_congr fun v _ => ?_
  rw [literal?_eq wf]
  cases hforces : p.forces v <;> simp [Option.guard, hforces]

theorem length_toPath (wf : p.WellFormed) : p.toPath.literals.length = p.literalCount := by
  have listed : p.support = ((List.range p.numVars).filter p.forces).toFinset := by
    ext v
    rw [mem_support, List.mem_toFinset, List.mem_filter, List.mem_range]
    exact (and_iff_right_of_imp wf.lt_numVars).symm
  rw [← card_support, listed, List.toFinset_card_of_nodup (List.nodup_range.filter _),
    ← var_literals_toPath wf, List.length_map]

/-! ### From paths to implicants -/

/-- The implicant of a path that holds in a row: it forces the variables of the path to their
values in the row. -/
def ofPath (path : Path) (row : Assignment) (numVars : Nat) : Implicant :=
  let care := Assignment.ofFn fun v => path.literals.any (·.var == v)
  ⟨care, row &&& care, numVars⟩

theorem forces_ofPath (path : Path) (n v : Nat) :
    (ofPath path row n).forces v = true ↔ v < 64 ∧ ∃ l ∈ path.literals, l.var = v := by
  change (Assignment.ofFn fun v => path.literals.any (·.var == v)).value v = true ↔ _
  rw [Assignment.value_ofFn, Bool.and_eq_true, decide_eq_true_eq, List.any_eq_true]
  simp only [beq_iff_eq]

theorem value_ofPath (path : Path) (n v : Nat) :
    (ofPath path row n).value.getLsbD v =
      (row.getLsbD v && (ofPath path row n).forces v) :=
  BitVec.getLsbD_and

theorem wellFormed_ofPath {path : Path} {n : Nat} (below : ∀ l ∈ path.literals, l.var < n) :
    (ofPath path row n).WellFormed := by
  rw [wellFormed_iff]
  constructor
  · intro v hv
    rw [value_ofPath, Bool.and_eq_true] at hv
    exact hv.2
  · intro v hv
    obtain ⟨-, l, hl, rfl⟩ := (forces_ofPath path n v).mp hv
    exact below l hl

/-- **A path that holds in some row has an implicant with the same rows.** -/
theorem covers_ofPath {path : Path} {n : Nat} (hn : n ≤ 64)
    (below : ∀ l ∈ path.literals, l.var < n) (holds : path.holds row = true)
    (row' : Assignment) : (ofPath path row n).covers row' = path.holds row' := by
  rw [Bool.eq_iff_iff, (wellFormed_ofPath below).covers_iff, Path.holds, List.all_eq_true]
  rw [Path.holds, List.all_eq_true] at holds
  constructor
  · intro h l hl
    have hforces : (ofPath path row n).forces l.var = true :=
      (forces_ofPath path n l.var).mpr ⟨by have := below l hl; omega, l, hl, rfl⟩
    have agree := h l.var hforces
    rw [value_ofPath, hforces, Bool.and_true] at agree
    rw [Literal.holds, Assignment.value, agree]
    exact holds l hl
  · intro h v hv
    obtain ⟨-, l, hl, rfl⟩ := (forces_ofPath path n v).mp hv
    rw [value_ofPath, hv, Bool.and_true]
    -- One literal on the variable is satisfied by both rows, so both give it the same value.
    have here := h l hl
    have there := holds l hl
    rw [Literal.holds, bne_iff_ne, Assignment.value] at here there
    exact (Bool.eq_not.mpr here).trans (Bool.eq_not.mpr there).symm

theorem literalCount_ofPath_le (path : Path) (n : Nat) :
    (ofPath path row n).literalCount ≤ path.literals.length := by
  have listed : (ofPath path row n).support ⊆ (path.literals.map Literal.var).toFinset := by
    intro v hv
    rw [mem_support, forces_ofPath] at hv
    rw [List.mem_toFinset, List.mem_map]
    exact hv.2
  calc (ofPath path row n).literalCount
      = (ofPath path row n).support.card := (card_support _).symm
    _ ≤ (path.literals.map Literal.var).toFinset.card := Finset.card_le_card listed
    _ ≤ (path.literals.map Literal.var).length := List.toFinset_card_le _
    _ = path.literals.length := List.length_map _

end Implicant
end FacetQuery
