import FacetQuery.Minimize
import FacetQuery.Proofs.Cover.Preference
import FacetQuery.Proofs.Formula.Grammar
import FacetQuery.Proofs.Implicant.Paths
import FacetQuery.Proofs.PrimeImplicants
import FacetQuery.Proofs.Text.Margins

/-!
# Minimisation finds a smallest cover with the same meaning

A formula over at most 63 variables is minimised without failure (`minimize_eq`), the cover has
the truth value of the formula under every assignment (`coverHolds_smallestCover`), and no list
of paths with this meaning is smaller (`smallestCover_le`).

The competitor in the last statement is any list of paths.  It is compared with the chosen
positions through a set of positions of its own: each of its paths that can hold at all is an
implicant, extends to a prime one, and contributes the position of this one
(`exists_positions`).
-/

namespace FacetQuery

open Cover Implicant PositionSet Tabulation

variable {e : Expr} {formula : String} {numVars : Nat} {row a : Assignment}

/-! ### The truth table -/

namespace Expr

theorem mem_trueRows :
    row ∈ e.trueRows numVars ↔ row.toNat < Nat.pow 2 numVars ∧ e.eval row = true := by
  rw [trueRows, List.mem_filter, List.mem_map]
  refine and_congr_left fun _ => ⟨?_, ?_⟩
  · rintro ⟨k, hk, rfl⟩
    rw [BitVec.toNat_ofNat]
    exact Nat.lt_of_le_of_lt (Nat.mod_le k _) (List.mem_range.mp hk)
  · intro hrow
    exact ⟨row.toNat, List.mem_range.mpr hrow, BitVec.ofNat_toNat 64 row⟩

/-- Bits beyond the variables of a formula do not change its truth value. -/
theorem eval_and_lowBits (below : ∀ v ∈ e.vars, v < numVars) (a : Assignment) :
    e.eval (a &&& lowBits numVars) = e.eval a := by
  refine eval_congr e fun v hv => ?_
  rw [Assignment.value, getLsbD_and_lowBits, decide_eq_true (below v hv), Bool.and_true]
  rfl

/-- The row of the truth table in which an assignment falls. -/
theorem and_lowBits_mem_trueRows (below : ∀ v ∈ e.vars, v < numVars) (h : e.eval a = true) :
    a &&& lowBits numVars ∈ e.trueRows numVars := by
  refine mem_trueRows.mpr ⟨?_, (eval_and_lowBits below a).trans h⟩
  rw [toNat_lt_iff, BitVec.and_assoc, BitVec.and_self]

theorem inOnSet_trueRows (below : ∀ v ∈ e.vars, v < numVars) :
    InOnSet (e.trueRows numVars) numVars a ↔ e.eval a = true := by
  constructor
  · rintro ⟨r, hr, agree⟩
    rw [← eval_and_lowBits below, agree, eval_and_lowBits below]
    exact (mem_trueRows.mp hr).2
  · intro h
    refine ⟨_, and_lowBits_mem_trueRows below h, ?_⟩
    rw [BitVec.and_assoc, BitVec.and_self]

def primes (e : Expr) (numVars : Nat) : List Implicant :=
  primeImplicants (e.trueRows numVars) numVars

def smallestCover (e : Expr) (numVars : Nat) : List Implicant :=
  (select (e.primes numVars) (e.trueRows numVars)).cover

end Expr

/-! ### Minimising succeeds -/

theorem truthTable_eq (read : Expr.read formula = .ok e) (fits : numVars ≤ maxVariables)
    (below : ∀ v ∈ e.vars, v < numVars) :
    truthTable formula numVars = .ok (e.trueRows numVars) := by
  rw [truthTable, if_neg (Nat.not_lt.mpr fits), read]
  cases hmax : e.maxVar? with
  | none => simp [hmax, Except.mapError, bind, Except.bind, pure, Except.pure]
  | some v =>
      have hv : ¬ numVars ≤ v := Nat.not_le.mpr (Expr.lt_of_maxVar? below hmax)
      simp [hmax, hv, Except.mapError, bind, Except.bind, pure, Except.pure]

/-- A text that is read as a formula is not blank. -/
theorem trim_ne_nil_of_read (read : Expr.read formula = .ok e) :
    (Text.trim formula.toList).isEmpty = false := by
  rw [Expr.read] at read
  split at read
  · rename_i e' hread
    obtain ⟨c, hc, visible⟩ := Formula.exists_not_blank_of_ofText? hread
    rw [List.isEmpty_eq_false_iff]
    exact List.ne_nil_of_mem (Text.mem_trim hc visible)
  · cases read

/-- **Minimising a formula over enough variables, but not too many, succeeds.** -/
theorem minimize_eq (read : Expr.read formula = .ok e) (pos : 1 ≤ numVars)
    (fits : numVars ≤ maxVariables) (below : ∀ v ∈ e.vars, v < numVars) :
    minimize formula numVars = .ok ((e.smallestCover numVars).map toPath) := by
  have hread : ¬ (numVars = 0 ∨ (Text.trim formula.toList).isEmpty = true) := by
    rw [trim_ne_nil_of_read read]
    simp only [Bool.false_eq_true, or_false]
    omega
  rw [minimize, Minimization.run, if_neg (Nat.not_lt.mpr fits), if_neg hread,
    truthTable_eq read fits below]
  cases hrows : e.trueRows numVars with
  | nil =>
      simp only [Expr.smallestCover, Expr.primes, hrows]
      rfl
  | cons r rest =>
      simp only [Expr.smallestCover, Expr.primes, hrows]
      rfl

/-! ### The cover means what the formula means -/

theorem mem_cover_select {primes : List Implicant} {rows : List Assignment} {p : Implicant} :
    p ∈ (select primes rows).cover ↔ ∃ i ∈ (choose primes rows).chosen, primes[i]? = some p :=
  List.mem_filterMap

theorem Expr.mem_primes (word : numVars ≤ 64) {p : Implicant} :
    p ∈ e.primes numVars ↔ IsPrime (e.trueRows numVars) numVars p :=
  mem_primeImplicants word

/-- Some set of positions covers the true rows: all positions together do. -/
theorem exists_coversRows (e : Expr) (word : numVars ≤ 64) :
    ∃ s, Ascending s ∧ CoversRows (e.primes numVars) (e.trueRows numVars) s := by
  have covered : ∀ row ∈ e.trueRows numVars, ∃ p ∈ e.primes numVars, p.covers row = true :=
    fun row hrow => exists_prime_covers word hrow
  exact ⟨_, List.pairwise_lt_range, coversRows_range covered⟩

theorem isPrime_of_mem_smallestCover (word : numVars ≤ 64) {p : Implicant}
    (hp : p ∈ e.smallestCover numVars) : IsPrime (e.trueRows numVars) numVars p := by
  obtain ⟨i, -, hi⟩ := mem_cover_select.mp hp
  exact (Expr.mem_primes word).mp (List.mem_of_getElem? hi)

/-- The variables of a smallest cover are declared. -/
theorem var_lt_of_mem_smallestCover (word : numVars ≤ 64) :
    ∀ p ∈ (e.smallestCover numVars).map toPath, ∀ l ∈ p.literals, l.var < numVars := by
  intro p hp l hl
  obtain ⟨q, hq, rfl⟩ := List.mem_map.mp hp
  have himp := (isPrime_of_mem_smallestCover word hq).isImplicant
  rw [← himp.numVars_eq]
  exact himp.wellFormed.lt_numVars ((mem_literals_toPath himp.wellFormed).mp hl).1

/-- **The cover has the truth value of the formula**, whatever the assignment says of variables
beyond the first ones. -/
theorem coverHolds_smallestCover (word : numVars ≤ 64) (below : ∀ v ∈ e.vars, v < numVars)
    (a : Assignment) :
    coverHolds ((e.smallestCover numVars).map toPath) a = e.eval a := by
  rw [Bool.eq_iff_iff, coverHolds, List.any_map, List.any_eq_true]
  constructor
  · rintro ⟨p, hp, hholds⟩
    have himp := (isPrime_of_mem_smallestCover word hp).isImplicant
    rw [Function.comp_apply, holds_toPath himp.wellFormed] at hholds
    exact (Expr.inOnSet_trueRows below).mp (himp.sound a hholds)
  · intro h
    obtain ⟨s, hs, hcovers⟩ := exists_coversRows e word
    obtain ⟨i, hi, p, hp, hrow⟩ := chosen_coversRows hs hcovers _
      (Expr.and_lowBits_mem_trueRows below h)
    -- The prime implicant covers the row of the assignment, so also the assignment itself.
    have hmem : p ∈ e.smallestCover numVars := mem_cover_select.mpr ⟨i, hi, hp⟩
    have himp := (isPrime_of_mem_smallestCover word hmem).isImplicant
    refine ⟨p, hmem, ?_⟩
    rw [Function.comp_apply, holds_toPath himp.wellFormed, ← hrow]
    refine himp.wellFormed.covers_congr fun v hv => ?_
    have hlt := himp.numVars_eq ▸ himp.wellFormed.lt_numVars hv
    rw [getLsbD_and_lowBits, decide_eq_true hlt, Bool.and_true]

/-! ### No list of paths with this meaning is smaller -/

/-- The number of literals of all paths of a cover. -/
def coverLiterals : List Path → Nat
  | [] => 0
  | path :: rest => path.literals.length + coverLiterals rest

theorem length_insert_le (i : Nat) (s : PositionSet) :
    (PositionSet.insert i s).length ≤ s.length + 1 := by
  induction s with
  | nil => rfl
  | cons j s ih =>
      rw [PositionSet.insert]
      split
      · rfl
      · split
        · exact Nat.le_succ _
        · exact Nat.succ_le_succ ih

theorem literalTotal_insert_le {primes : List Implicant} {i : Nat} {p : Implicant}
    (hi : primes[i]? = some p) (s : PositionSet) :
    literalTotal primes (PositionSet.insert i s) ≤ p.literalCount + literalTotal primes s := by
  induction s with
  | nil =>
      have single : literalTotal primes [i] = p.literalCount := by
        rw [literalTotal, hi]
        rfl
      exact single.le
  | cons j s ih =>
      rw [PositionSet.insert]
      split
      · rw [literalTotal, hi, Option.map_some, Option.getD_some]
      · split
        · exact Nat.le_add_left _ _
        · rw [literalTotal, literalTotal, Nat.add_left_comm]
          exact Nat.add_le_add_left ih _

/-- A path that can hold and implies the formula extends to a prime implicant with no more
literals. -/
theorem exists_prime_of_path (word : numVars ≤ 64) (below : ∀ v ∈ e.vars, v < numVars)
    {path : Path} (declared : ∀ l ∈ path.literals, l.var < numVars)
    (sound : ∀ a, path.holds a = true → e.eval a = true) (hrow : path.holds row = true) :
    ∃ (i : Nat) (p : Implicant), (e.primes numVars)[i]? = some p ∧
      p.literalCount ≤ path.literals.length ∧
      ∀ row', path.holds row' = true → p.covers row' = true := by
  have covers := covers_ofPath word declared hrow
  have himp : IsImplicant (e.trueRows numVars) numVars (ofPath path row numVars) := by
    refine ⟨wellFormed_ofPath declared, rfl, fun row' hrow' => ?_⟩
    rw [covers] at hrow'
    exact (Expr.inOnSet_trueRows below).mpr (sound row' hrow')
  obtain ⟨p, hp, hcount, hextends⟩ := himp.exists_isPrime
  obtain ⟨i, hi⟩ := List.mem_iff_getElem?.mp ((Expr.mem_primes word).mpr hp)
  refine ⟨i, p, hi, hcount.trans (literalCount_ofPath_le path numVars), fun row' hrow' => ?_⟩
  exact hextends row' ((covers row').trans hrow')

/-- **Any paths that imply the formula can be replaced by prime implicants** that cover the same
rows, are not more and have no more literals.  A path that never holds is left out. -/
theorem exists_positions (word : numVars ≤ 64) (below : ∀ v ∈ e.vars, v < numVars)
    {paths : List Path} (declared : ∀ path ∈ paths, ∀ l ∈ path.literals, l.var < numVars)
    (sound : ∀ path ∈ paths, ∀ a, path.holds a = true → e.eval a = true) :
    ∃ s, Ascending s ∧ s.length ≤ paths.length ∧
      literalTotal (e.primes numVars) s ≤ coverLiterals paths ∧
      ∀ path ∈ paths, ∀ row, path.holds row = true →
        ∃ i ∈ s, ∃ p, (e.primes numVars)[i]? = some p ∧ p.covers row = true := by
  induction paths with
  | nil =>
      exact ⟨[], ascending_nil, Nat.le_refl 0, Nat.le_refl 0, fun _ h => absurd h List.not_mem_nil⟩
  | cons path rest ih =>
      obtain ⟨declared, declaredRest⟩ := List.forall_mem_cons.mp declared
      obtain ⟨sound, soundRest⟩ := List.forall_mem_cons.mp sound
      obtain ⟨s, hs, hlength, htotal, hcovers⟩ := ih declaredRest soundRest
      rw [coverLiterals]
      by_cases satisfiable : ∃ row, path.holds row = true
      · obtain ⟨row, hrow⟩ := satisfiable
        obtain ⟨i, p, hi, hcount, hextends⟩ := exists_prime_of_path word below declared sound hrow
        have hinsert := literalTotal_insert_le hi s
        refine ⟨PositionSet.insert i s, hs.insert i, ?_, by omega,
          List.forall_mem_cons.mpr ⟨fun row' hrow' => ?_, fun other hother row' hrow' => ?_⟩⟩
        · exact (length_insert_le i s).trans (Nat.succ_le_succ hlength)
        · exact ⟨i, mem_insert.mpr (Or.inl rfl), p, hi, hextends row' hrow'⟩
        · obtain ⟨j, hj, hcovered⟩ := hcovers other hother row' hrow'
          exact ⟨j, mem_insert.mpr (Or.inr hj), hcovered⟩
      · refine ⟨s, hs, Nat.le_succ_of_le hlength, by omega,
          List.forall_mem_cons.mpr ⟨fun row hrow => ?_, hcovers⟩⟩
        exact absurd ⟨row, hrow⟩ satisfiable

/-- The paths of chosen implicants have as many literals as the implicants. -/
theorem coverLiterals_filterMap {primes : List Implicant} (wf : ∀ p ∈ primes, p.WellFormed)
    (s : PositionSet) :
    coverLiterals ((s.filterMap (primes[·]?)).map toPath) = literalTotal primes s := by
  induction s with
  | nil => rfl
  | cons i s ih =>
      rw [literalTotal]
      cases hi : primes[i]? with
      | none =>
          rw [List.filterMap_cons_none hi, ih, Option.map_none, Option.getD_none, Nat.zero_add]
      | some p =>
          rw [List.filterMap_cons_some hi, List.map_cons, coverLiterals, ih, Option.map_some,
            Option.getD_some, length_toPath (wf p (List.mem_of_getElem? hi))]

/-- **No list of paths with the meaning of the formula is better**: none is shorter, and none that
is as short has fewer literals. -/
theorem smallestCover_le (word : numVars ≤ 64) (below : ∀ v ∈ e.vars, v < numVars)
    (other : List Path) (declared : ∀ path ∈ other, ∀ l ∈ path.literals, l.var < numVars)
    (same : ∀ a, coverHolds other a = e.eval a) :
    ((e.smallestCover numVars).map toPath).length ≤ other.length ∧
      (((e.smallestCover numVars).map toPath).length = other.length →
        coverLiterals ((e.smallestCover numVars).map toPath) ≤ coverLiterals other) := by
  have sound : ∀ path ∈ other, ∀ a, path.holds a = true → e.eval a = true := by
    intro path hpath a hholds
    rw [← same a]
    exact List.any_eq_true.mpr ⟨path, hpath, hholds⟩
  obtain ⟨s, hs, hlength, htotal, hcovers⟩ := exists_positions word below declared sound
  have hrows : CoversRows (e.primes numVars) (e.trueRows numVars) s := by
    intro row hrow
    have hholds := (same row).trans (Expr.mem_trueRows.mp hrow).2
    obtain ⟨path, hpath, hholds⟩ := List.any_eq_true.mp hholds
    exact hcovers path hpath row hholds
  obtain ⟨hle, hliterals⟩ := chosen_le hs hrows
  have wf : ∀ p ∈ e.primes numVars, p.WellFormed := fun p hp =>
    ((Expr.mem_primes word).mp hp).isImplicant.wellFormed
  -- A position that names no prime implicant would contribute no path, hence only `≤` here.
  have hcover : ((e.smallestCover numVars).map toPath).length ≤
      (choose (e.primes numVars) (e.trueRows numVars)).chosen.length := by
    rw [List.length_map]
    exact List.length_filterMap_le _ _
  refine ⟨hcover.trans (hle.trans hlength), fun heq => ?_⟩
  rw [Expr.smallestCover, select, coverLiterals_filterMap wf]
  exact (hliterals (by omega)).trans htotal

/-! ### The minimised formula -/

/-- **Minimising preserves meaning.**  A formula whose variables are all declared is minimised,
and the cover has its truth value under every assignment.  A formula that is never true has the
empty cover, and one that is always true has the cover of one empty path. -/
theorem minimize_preserves_meaning (read : Expr.read formula = .ok e) (pos : 1 ≤ numVars)
    (fits : numVars ≤ maxVariables) (below : ∀ v ∈ e.vars, v < numVars) :
    ∃ cover, minimize formula numVars = .ok cover ∧
      (∀ a, coverHolds cover a = e.eval a) ∧
      ((∀ a, e.eval a = false) → cover = []) ∧
      ((∀ a, e.eval a = true) → cover = [⟨[]⟩]) := by
  have word : numVars ≤ 64 := Nat.le_succ_of_le fits
  have meaning : ∀ a, coverHolds ((e.smallestCover numVars).map toPath) a = e.eval a :=
    coverHolds_smallestCover word below
  refine ⟨_, minimize_eq read pos fits below, meaning, fun never => ?_, fun always => ?_⟩
  · -- The empty cover is a competitor.
    have hle := (smallestCover_le word below [] (fun path hpath => nomatch hpath)
      fun a => (never a).symm).1
    exact List.length_eq_zero_iff.mp (Nat.le_zero.mp hle)
  · -- The cover of one empty path is a competitor, and the empty cover never holds.
    have hle := smallestCover_le word below [⟨[]⟩]
      (fun path hpath l hl => by
        rw [List.mem_singleton.mp hpath] at hl
        exact absurd hl List.not_mem_nil)
      fun a => (always a).symm
    have holds := (meaning 0).trans (always 0)
    revert hle holds
    rcases (e.smallestCover numVars).map toPath with _ | ⟨⟨literals⟩, _ | ⟨second, rest⟩⟩
    · exact fun _ holds => nomatch holds
    · intro hle _
      have hnone : literals.length = 0 := Nat.le_zero.mp (hle.2 rfl)
      rw [List.length_eq_zero_iff.mp hnone]
    · exact fun hle _ => absurd hle.1 (by simp)

/-- A formula over three variables of which the cover needs one. -/
theorem minimize_preserves_meaning_of_redundant_variable :
    ∃ e, Expr.read "0&1 | 0&!1" = .ok e ∧ (1 ≤ 3 ∧ 3 ≤ maxVariables ∧ ∀ v ∈ e.vars, v < 3) ∧
      ∃ cover, minimize "0&1 | 0&!1" 3 = .ok cover ∧
        (∀ a, coverHolds cover a = e.eval a) ∧
        ((∀ a, e.eval a = false) → cover = []) ∧
        ((∀ a, e.eval a = true) → cover = [⟨[]⟩]) :=
  ⟨_, rfl, ⟨by decide, by decide, by decide⟩,
    minimize_preserves_meaning rfl (by decide) (by decide) (by decide)⟩

/-- **The cover is a minimum sum of products.**  It is a sum of products for the formula: its paths
are over the declared variables, and together they have the truth value of the formula.  And it is
a least one: no list of such paths with this meaning is shorter than the cover, and none that is as
short has fewer literals. -/
theorem minimize_minimum (read : Expr.read formula = .ok e) (pos : 1 ≤ numVars)
    (fits : numVars ≤ maxVariables) (below : ∀ v ∈ e.vars, v < numVars) :
    ∃ cover, minimize formula numVars = .ok cover ∧
      (∀ path ∈ cover, ∀ l ∈ path.literals, l.var < numVars) ∧
      (∀ a, coverHolds cover a = e.eval a) ∧
      ∀ other : List Path, (∀ path ∈ other, ∀ l ∈ path.literals, l.var < numVars) →
        (∀ a, coverHolds other a = e.eval a) →
        cover.length ≤ other.length ∧
          (cover.length = other.length → coverLiterals cover ≤ coverLiterals other) :=
  have word : numVars ≤ 64 := Nat.le_succ_of_le fits
  ⟨_, minimize_eq read pos fits below, var_lt_of_mem_smallestCover word,
    coverHolds_smallestCover word below, smallestCover_le word below⟩

/-- A formula of three paths that all ask for one variable.  One path with one literal has the same
meaning, and then the cover can be nothing else. -/
theorem minimize_minimum_of_shared_literal :
    ∃ e, Expr.read "0&1 | 0&!1 | 0&2" = .ok e ∧
      (1 ≤ 3 ∧ 3 ≤ maxVariables ∧ ∀ v ∈ e.vars, v < 3) ∧
      minimize "0&1 | 0&!1 | 0&2" 3 = .ok [⟨[⟨0, false⟩]⟩] ∧
      (∀ a, coverHolds [⟨[⟨0, false⟩]⟩] a = e.eval a) ∧
      ∀ other : List Path, (∀ path ∈ other, ∀ l ∈ path.literals, l.var < 3) →
        (∀ a, coverHolds other a = e.eval a) →
        1 ≤ other.length ∧ (1 = other.length → 1 ≤ coverLiterals other) := by
  obtain ⟨e, read, below, meaning⟩ :
      ∃ e, Expr.read "0&1 | 0&!1 | 0&2" = .ok e ∧ (∀ v ∈ e.vars, v < 3) ∧
        ∀ a, coverHolds [⟨[⟨0, false⟩]⟩] a = e.eval a := by
    refine ⟨.or [.and [.var 0, .var 1], .and [.var 0, .not (.var 1)], .and [.var 0, .var 2]], rfl,
      by decide, fun a => ?_⟩
    simp only [coverHolds, Path.holds, Literal.holds, List.any_cons, List.any_nil, List.all_cons,
      List.all_nil, Bool.bne_false, Bool.and_true, Bool.or_false, Expr.eval, Expr.evalSome,
      Expr.evalAll]
    cases a.value 0 <;> cases a.value 1 <;> rfl
  obtain ⟨cover, minimized, declared, same, least⟩ :=
    minimize_minimum read (by decide) (by decide) below
  obtain ⟨hlength, hliterals⟩ := least [⟨[⟨0, false⟩]⟩] (by simp) meaning
  obtain rfl : cover = [⟨[⟨0, false⟩]⟩] := by
    have at0 := (same 0).trans (meaning 0).symm
    have at1 := (same 1).trans (meaning 1).symm
    rcases cover with _ | ⟨⟨literals⟩, _ | ⟨second, rest⟩⟩
    · cases at1
    · rcases literals with _ | ⟨⟨v, negated⟩, _ | ⟨another, more⟩⟩
      · cases at0
      · -- A literal over another variable, and the negated one, differ in one of these two rows.
        have hv : v < 3 := declared _ (List.mem_singleton_self _) _ (List.mem_singleton_self _)
        obtain rfl | rfl | rfl : v = 0 ∨ v = 1 ∨ v = 2 := by omega
        all_goals
          revert at0 at1
          cases negated <;> decide
      · have hle := hliterals rfl
        simp [coverLiterals] at hle
    · simp at hlength
  exact ⟨e, read, ⟨by decide, by decide, below⟩, minimized, same, least⟩

end FacetQuery
