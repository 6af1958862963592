import FacetQuery.Proofs.Implicant.Neighbours

/-!
# Merging two implicants

Two implicants merge when they force the same variables and give the opposite value to exactly one
of them.  On words this is a comparison of two fields and a count of bits; variable by variable it
says that the second implicant is the first one with a forced variable flipped, and that what they
merge into is the first one with this variable left open (`WellFormed.merge?_eq_some_iff`).

### What is load-bearing

* Both implicants have to be well formed.  The count looks at values alone, and a bit in which two
  values differ is that of a forced variable only if no open variable has a value.
* Merging is symmetric, and looking up the upper neighbours is not: of two implicants that merge,
  one forces the variable in question to be false and the other one forces it to be true, so the
  pair is found from exactly one side (`WellFormed.merge?_eq_some_iff_upperNeighbours`,
  `not_mem_upperNeighbours_of_mem`).
-/

namespace FacetQuery
namespace Implicant

variable {p q m : Implicant} {v : Nat}

/-! ### Words with a single bit -/

/-- A word with exactly one bit is the bit of a variable. -/
theorem countP_getLsbD_eq_one_iff {x : BitVec 64} :
    (List.range 64).countP x.getLsbD = 1 ↔ ∃ v < 64, x = bit v := by
  constructor
  · intro hcount
    rw [List.countP_eq_length_filter, List.length_eq_one_iff] at hcount
    obtain ⟨v, hfilter⟩ := hcount
    have hmem (w : Nat) : w < 64 ∧ x.getLsbD w = true ↔ w = v := by
      rw [← List.mem_singleton (b := v), ← hfilter, List.mem_filter, List.mem_range]
    have hv : v < 64 := ((hmem v).mpr rfl).1
    refine ⟨v, hv, BitVec.eq_of_getLsbD_eq fun w hw => ?_⟩
    rw [getLsbD_bit, Bool.eq_iff_iff, decide_eq_true_eq, and_iff_right hv, eq_comm (a := v),
      ← hmem w, and_iff_right hw]
  · rintro ⟨v, hv, rfl⟩
    rw [← List.count_eq_one_of_mem List.nodup_range (List.mem_range.mpr hv), List.count]
    refine List.countP_congr fun w _ => ?_
    rw [getLsbD_bit, decide_eq_true_eq, and_iff_right hv, beq_iff_eq, eq_comm]

/-! ### Which implicants merge -/

/-- Two implicants merge when the second one is the first one with one bit of its value changed. -/
theorem merge?_eq_some_iff :
    p.merge? q = some m ↔ ∃ v < 64, p.flip v = q ∧ p.leaveOpen v = m := by
  have flips {v : Nat} (hdifference : p.difference q = bit v) : p.value ^^^ bit v = q.value := by
    rw [← hdifference, difference, ← BitVec.xor_assoc, BitVec.xor_self, BitVec.zero_xor]
  constructor
  · intro h
    rw [merge?] at h
    split at h
    · rename_i hmerge
      obtain ⟨hcare, hnumVars, hcount⟩ := hmerge
      obtain ⟨v, hv, hdifference⟩ := countP_getLsbD_eq_one_iff.mp hcount
      refine ⟨v, hv, ?_, ?_⟩
      · rw [flip, flips hdifference, hcare, hnumVars]
      · rw [leaveOpen, ← hdifference]
        exact Option.some.inj h
    · cases h
  · rintro ⟨v, hv, rfl, rfl⟩
    have hdifference : p.difference (p.flip v) = bit v := by
      rw [difference, flip, ← BitVec.xor_assoc, BitVec.xor_self, BitVec.zero_xor]
    rw [merge?, if_pos ⟨rfl, rfl, countP_getLsbD_eq_one_iff.mpr ⟨v, hv, hdifference⟩⟩, hdifference]
    rfl

/-- **What merges**, when no open variable has a value: an implicant and what it becomes when a
variable that it forces is flipped.  This variable is left open. -/
theorem WellFormed.merge?_eq_some_iff (hp : p.WellFormed) (hq : q.WellFormed) :
    p.merge? q = some m ↔ ∃ v, p.forces v = true ∧ p.flip v = q ∧ p.leaveOpen v = m := by
  rw [Implicant.merge?_eq_some_iff]
  refine exists_congr fun v => and_congr_left fun ⟨hflip, _⟩ => ⟨fun hv => ?_, lt_of_forces⟩
  subst hflip
  -- One of the two gives the variable a value, and both force the same variables.
  cases hvalue : p.value.getLsbD v with
  | true => exact hp.forces_of_value hvalue
  | false =>
      rw [← forces_flip p v v]
      refine hq.forces_of_value ?_
      rw [value_flip p hv, hvalue, decide_eq_true rfl]
      rfl

/-! ### Merging and looking up -/

theorem WellFormed.mem_upperNeighbours_iff (hp : p.WellFormed) :
    (q, m) ∈ p.upperNeighbours ↔
      ∃ v, p.forcesFalse v = true ∧ p.flip v = q ∧ p.leaveOpen v = m := by
  rw [mem_upperNeighbours]
  refine exists_congr fun v => ?_
  rw [Prod.mk.injEq]
  constructor
  · rintro ⟨-, hfalse, hflip, hrelax⟩
    exact ⟨hfalse, hflip, relax_eq_leaveOpen hfalse ▸ hrelax⟩
  · rintro ⟨hfalse, hflip, hopen⟩
    refine ⟨hp.lt_numVars (forcesFalse_iff.mp hfalse).1, hfalse, hflip, ?_⟩
    rw [relax_eq_leaveOpen hfalse, hopen]

/-- It makes no difference which of two neighbours has the variable left open. -/
theorem leaveOpen_flip (hv : v < 64) : (p.flip v).leaveOpen v = p.leaveOpen v := by
  refine ext_bits rfl (fun w => rfl) fun w => ?_
  rw [value_leaveOpen, value_leaveOpen, value_flip p hv]
  by_cases hvw : v = w
  · simp [hvw]
  · simp [hvw]

/-- An implicant is no upper neighbour of its upper neighbours. -/
theorem not_mem_upperNeighbours_of_mem {m' : Implicant} (h : (q, m) ∈ p.upperNeighbours) :
    (p, m') ∉ q.upperNeighbours := by
  intro hback
  obtain ⟨v, -, hfalse, hq⟩ := mem_upperNeighbours.mp h
  obtain ⟨w, -, hfalse', hp⟩ := mem_upperNeighbours.mp hback
  obtain ⟨rfl, -⟩ := Prod.mk.inj hq
  obtain ⟨hflip, -⟩ := Prod.mk.inj hp
  have hv := lt_of_forces (forcesFalse_iff.mp hfalse).1
  have hw := lt_of_forces (forcesFalse_iff.mp hfalse').1
  have hset : (p.flip v).value.getLsbD v = true := by
    rw [value_flip p hv, (forcesFalse_iff.mp hfalse).2, decide_eq_true rfl]
    rfl
  have hreset : ((p.flip v).flip w).value.getLsbD v = false := by
    rw [hflip]
    exact (forcesFalse_iff.mp hfalse).2
  -- The way back has to flip the same variable, which by now is forced to be true.
  rw [value_flip _ hw, hset] at hreset
  obtain rfl : w = v := by simpa using hreset
  rw [(forcesFalse_iff.mp hfalse').2] at hset
  cases hset

/-- **Two implicants merge when one of them is an upper neighbour of the other one**, and then the
other one is none of the first. -/
theorem WellFormed.merge?_eq_some_iff_upperNeighbours (hp : p.WellFormed) (hq : q.WellFormed) :
    p.merge? q = some m ↔ Xor ((q, m) ∈ p.upperNeighbours) ((p, m) ∈ q.upperNeighbours) := by
  rw [xor_iff_or_and_not_and, and_iff_left fun h => not_mem_upperNeighbours_of_mem h.1 h.2,
    hp.merge?_eq_some_iff hq, hp.mem_upperNeighbours_iff, hq.mem_upperNeighbours_iff, ← exists_or]
  refine exists_congr fun v => ?_
  constructor
  · rintro ⟨hforces, rfl, rfl⟩
    have hv := lt_of_forces hforces
    cases hvalue : p.value.getLsbD v with
    | false => exact Or.inl ⟨forcesFalse_iff.mpr ⟨hforces, hvalue⟩, rfl, rfl⟩
    | true =>
        refine Or.inr ⟨forcesFalse_iff.mpr ⟨hforces, ?_⟩, flip_flip p v, leaveOpen_flip hv⟩
        rw [value_flip p hv, hvalue, decide_eq_true rfl]
        rfl
  · rintro (⟨hfalse, hflip, hopen⟩ | ⟨hfalse, rfl, rfl⟩)
    · exact ⟨(forcesFalse_iff.mp hfalse).1, hflip, hopen⟩
    · have hforces := (forcesFalse_iff.mp hfalse).1
      exact ⟨hforces, flip_flip q v, leaveOpen_flip (lt_of_forces hforces)⟩

end Implicant
end FacetQuery
