import FacetQuery.Proofs.Cover.HittingSets

/-!
# The choice of a cover

A set of positions covers a list of rows (`CoversRows`) when each row is covered by the implicant
at one of the positions.  `chosen_coversRows` says that the chosen positions do so whenever any
set does.

The essential positions are in every covering set, so taking them first loses nothing: a covering
set splits into the essential positions and a hitting set of the rows they leave uncovered, and
the chosen positions split the same way.
-/

namespace FacetQuery
namespace Cover

open PositionSet

variable {primes : List Implicant} {rows : List Assignment} {row : Assignment}
  {sums : List PositionSet} {s t : PositionSet} {i : Nat}

/-! ### Preference -/

theorem literalTotal_append (primes : List Implicant) (s t : PositionSet) :
    literalTotal primes (s ++ t) = literalTotal primes s + literalTotal primes t := by
  induction s with
  | nil => rw [List.nil_append, literalTotal, Nat.zero_add]
  | cons i s ih => rw [List.cons_append, literalTotal, literalTotal, ih, Nat.add_assoc]

theorem literalTotal_perm (primes : List Implicant) (h : s.Perm t) :
    literalTotal primes s = literalTotal primes t := by
  induction h with
  | nil => rfl
  | cons i _ ih => rw [literalTotal, literalTotal, ih]
  | swap i j s => simp only [literalTotal, Nat.add_left_comm]
  | trans _ _ ih₁ ih₂ => rw [ih₁, ih₂]

theorem comparePreference_eq (primes : List Implicant) :
    comparePreference primes =
      compareLex (compareOn List.length)
        (compareLex (compareOn (literalTotal primes)) compareMembers) :=
  rfl

instance (primes : List Implicant) : Std.TransCmp (comparePreference primes) := by
  rw [comparePreference_eq]
  infer_instance

/-- A set with fewer members is preferred. -/
theorem comparePreference_of_length_lt (h : s.length < t.length) :
    (comparePreference primes s t).isLE = true := by
  rw [comparePreference, Nat.compare_eq_lt.mpr h]
  rfl

/-- Going through a list ends at a member that is preferred to all others. -/
theorem foldl_prefer (primes : List Implicant) (rest : List PositionSet) (s : PositionSet) :
    rest.foldl (prefer primes) s ∈ s :: rest ∧
      ∀ t ∈ s :: rest, (comparePreference primes (rest.foldl (prefer primes) s) t).isLE = true := by
  induction rest generalizing s with
  | nil =>
      refine ⟨List.mem_singleton.mpr rfl, fun t ht => ?_⟩
      rw [List.mem_singleton.mp ht]
      exact Std.ReflCmp.isLE_rfl
  | cons u rest ih =>
      obtain ⟨mem, least⟩ := ih (prefer primes s u)
      have hprefer := least _ List.mem_cons_self
      rw [List.foldl_cons]
      constructor
      · rcases List.mem_cons.mp mem with heq | hrest
        · rw [heq, prefer]
          split
          · exact List.mem_cons_of_mem _ List.mem_cons_self
          · exact List.mem_cons_self
        · exact List.mem_cons_of_mem _ (List.mem_cons_of_mem _ hrest)
      · -- The preferred one of the first two is no worse than either.
        have hfirst : (comparePreference primes (prefer primes s u) s).isLE = true ∧
            (comparePreference primes (prefer primes s u) u).isLE = true := by
          rw [prefer]
          split
          · rename_i hlt
            exact ⟨by rw [hlt]; rfl, Std.ReflCmp.isLE_rfl⟩
          · rename_i hnot
            have hswap : comparePreference primes s u = (comparePreference primes u s).swap :=
              Std.OrientedCmp.eq_swap
            refine ⟨Std.ReflCmp.isLE_rfl, ?_⟩
            rw [hswap]
            cases h : comparePreference primes u s with
            | lt => exact absurd h hnot
            | eq => rfl
            | gt => rfl
        intro t ht
        rcases List.mem_cons.mp ht with rfl | ht
        · exact Std.TransCmp.isLE_trans hprefer hfirst.1
        · rcases List.mem_cons.mp ht with rfl | ht
          · exact Std.TransCmp.isLE_trans hprefer hfirst.2
          · exact least t (List.mem_cons_of_mem _ ht)

/-- **Meeting all sums picks a minimal hitting set that is preferred to every hitting set.** -/
theorem meetAll_least (primes : List Implicant) (ascending : ∀ sum ∈ sums, Ascending sum)
    (hs : Ascending s) (hits : Hits sums s) :
    MinimalHitting sums (meetAll primes sums) ∧
      (comparePreference primes (meetAll primes sums) s).isLE = true := by
  obtain ⟨m, hm, hms⟩ := hits.exists_minimal hs
  have hmem := (mem_expand ascending).mpr hm
  rw [meetAll]
  cases hexpand : expand sums with
  | nil =>
      rw [hexpand] at hmem
      exact absurd hmem List.not_mem_nil
  | cons first rest =>
      rw [hexpand] at hmem
      obtain ⟨mem, least⟩ := foldl_prefer primes rest first
      rw [← hexpand] at mem
      refine ⟨(mem_expand ascending).mp mem, ?_⟩
      have hle := least m hmem
      -- A proper subset is preferred for its size; otherwise the subset is the set itself.
      rcases Nat.lt_or_ge m.length s.length with hlt | hge
      · exact Std.TransCmp.isLE_trans hle (comparePreference_of_length_lt hlt)
      · rwa [← hm.ascending.eq_of_length_le hs hms hge]

/-! ### Rows and coverings -/

theorem mem_covering :
    i ∈ covering primes row ↔ ∃ p, primes[i]? = some p ∧ p.covers row = true := by
  rw [covering, List.mem_filterMap]
  constructor
  · rintro ⟨⟨p, j⟩, hmem, hsome⟩
    dsimp only at hsome
    split at hsome
    · rename_i hcovers
      obtain rfl := Option.some.inj hsome
      exact ⟨p, List.mem_zipIdx_iff_getElem?.mp hmem, hcovers⟩
    · cases hsome
  · rintro ⟨p, hp, hcovers⟩
    exact ⟨(p, i), List.mem_zipIdx_iff_getElem?.mpr hp, if_pos hcovers⟩

theorem ascending_covering (primes : List Implicant) (row : Assignment) :
    Ascending (covering primes row) := by
  have positions : primes.zipIdx.Pairwise fun x y => x.2 < y.2 := by
    rw [← List.pairwise_map, List.zipIdx_map_snd]
    exact List.pairwise_lt_range'
  refine List.Pairwise.filterMap _ (fun x y hlt i hi j hj => ?_) positions
  dsimp only at hi hj
  split at hi <;> split at hj
  · obtain rfl := Option.some.inj hi
    obtain rfl := Option.some.inj hj
    exact hlt
  all_goals contradiction

/-- Each row is covered by the implicant at one of the positions. -/
def CoversRows (primes : List Implicant) (rows : List Assignment) (s : PositionSet) : Prop :=
  ∀ row ∈ rows, ∃ i ∈ s, ∃ p, primes[i]? = some p ∧ p.covers row = true

/-- All positions together cover every row that some implicant covers. -/
theorem coversRows_range (covered : ∀ row ∈ rows, ∃ p ∈ primes, p.covers row = true) :
    CoversRows primes rows (List.range primes.length) := by
  intro row hrow
  obtain ⟨p, hp, hcovers⟩ := covered row hrow
  obtain ⟨i, hi⟩ := List.mem_iff_getElem?.mp hp
  exact ⟨i, List.mem_range.mpr (List.getElem?_eq_some_iff.mp hi).1, p, hi, hcovers⟩

theorem coversRows_iff_hits : CoversRows primes rows s ↔ Hits (rows.map (covering primes)) s := by
  rw [CoversRows, Hits, List.forall_mem_map]
  refine forall₂_congr fun row _ => exists_congr fun i => ?_
  rw [mem_covering, and_comm]

/-! ### Essential positions -/

private theorem mem_foldl_insert {is : List Nat} :
    i ∈ is.foldl (fun s i => PositionSet.insert i s) s ↔ i ∈ is ∨ i ∈ s :=
  mem_union (s := is)

theorem mem_essential :
    i ∈ (choose primes rows).essential ↔ ∃ row ∈ rows, covering primes row = [i] := by
  rw [choose, mem_foldl_insert, List.mem_nil_iff, or_false, List.mem_filterMap]
  constructor
  · rintro ⟨sum, hsum, hsingle⟩
    obtain ⟨row, hrow, rfl⟩ := List.mem_map.mp hsum
    refine ⟨row, hrow, ?_⟩
    revert hsingle
    rcases covering primes row with _ | ⟨j, _ | ⟨k, rest⟩⟩
    · exact fun h => nomatch h
    · exact fun h => by rw [Option.some.inj h]
    · exact fun h => nomatch h
  · rintro ⟨row, hrow, heq⟩
    refine ⟨covering primes row, List.mem_map.mpr ⟨row, hrow, rfl⟩, ?_⟩
    rw [heq, single?]

theorem ascending_essential (primes : List Implicant) (rows : List Assignment) :
    Ascending (choose primes rows).essential :=
  ascending_nil.union _

/-- Every covering set contains the essential positions. -/
theorem essential_subset (h : CoversRows primes rows s) :
    (choose primes rows).essential ⊆ s := by
  intro i hi
  obtain ⟨row, hrow, heq⟩ := mem_essential.mp hi
  obtain ⟨j, hj, hcovers⟩ := h row hrow
  rw [← mem_covering, heq, List.mem_singleton] at hcovers
  exact hcovers ▸ hj

/-- The coverings of the rows that the essential positions leave uncovered. -/
def remaining (primes : List Implicant) (rows : List Assignment) : List PositionSet :=
  (rows.map (covering primes)).filter (disjoint · (choose primes rows).essential)

theorem ascending_of_mem_remaining {sum : PositionSet} (h : sum ∈ remaining primes rows) :
    Ascending sum := by
  obtain ⟨row, -, rfl⟩ := List.mem_map.mp (List.mem_filter.mp h).1
  exact ascending_covering primes row

theorem not_mem_essential_of_mem_remaining {sum : PositionSet}
    (h : sum ∈ remaining primes rows) (hi : i ∈ sum) : i ∉ (choose primes rows).essential :=
  disjoint_iff.mp (List.mem_filter.mp h).2 i hi

/-- The chosen positions are the essential ones and those that meet the remaining coverings, also
when no covering remains. -/
theorem chosen_eq (primes : List Implicant) (rows : List Assignment) :
    (choose primes rows).chosen =
      union (meetAll primes (remaining primes rows)) (choose primes rows).essential := by
  change (if (remaining primes rows).isEmpty then (choose primes rows).essential else _) = _
  split
  · rename_i hempty
    rw [List.isEmpty_iff.mp hempty, meetAll, expand, absorb, List.mergeSort_nil]
    rfl
  · rfl

/-! ### The chosen positions -/

/-- No essential position helps to meet the remaining coverings. -/
theorem Hits.filter_not_essential (h : Hits (remaining primes rows) s) :
    Hits (remaining primes rows)
      (s.filter fun i => decide (i ∉ (choose primes rows).essential)) := by
  intro sum hsum
  obtain ⟨i, hi, his⟩ := h sum hsum
  refine ⟨i, hi, List.mem_filter.mpr ⟨his, ?_⟩⟩
  exact decide_eq_true (not_mem_essential_of_mem_remaining hsum hi)

/-- A covering set without the essential positions meets the remaining coverings. -/
theorem hits_remaining (h : CoversRows primes rows s) :
    Hits (remaining primes rows)
      (s.filter fun i => decide (i ∉ (choose primes rows).essential)) := by
  have hall := coversRows_iff_hits.mp h
  have hremaining : Hits (remaining primes rows) s :=
    fun sum hsum => hall sum (List.mem_filter.mp hsum).1
  exact hremaining.filter_not_essential

/-- What meets the remaining coverings needs no essential position. -/
theorem MinimalHitting.not_mem_essential (h : MinimalHitting (remaining primes rows) s) :
    ∀ i ∈ s, i ∉ (choose primes rows).essential := by
  -- Dropping the essential positions still meets everything, so there are none to drop.
  have heq := h.minimal _ (h.ascending.filter _) h.hits.filter_not_essential
    (List.filter_subset_self s)
  intro i hi
  rw [← heq] at hi
  exact of_decide_eq_true (List.mem_filter.mp hi).2

/-- The set that meets the remaining coverings is minimal, and it is preferred to what any covering
set has besides the essential positions. -/
theorem meetAll_remaining (hs : Ascending s) (h : CoversRows primes rows s) :
    MinimalHitting (remaining primes rows) (meetAll primes (remaining primes rows)) ∧
      (comparePreference primes (meetAll primes (remaining primes rows))
        (s.filter fun i => decide (i ∉ (choose primes rows).essential))).isLE = true := by
  have ascending : ∀ sum ∈ remaining primes rows, Ascending sum :=
    fun sum hsum => ascending_of_mem_remaining hsum
  exact meetAll_least primes ascending (hs.filter _) (hits_remaining h)

/-- **The chosen positions cover all rows**, if any set of positions does. -/
theorem chosen_coversRows (hs : Ascending s) (h : CoversRows primes rows s) :
    CoversRows primes rows (choose primes rows).chosen := by
  obtain ⟨least, -⟩ := meetAll_remaining hs h
  rw [coversRows_iff_hits, chosen_eq]
  intro sum hsum
  -- Either the row is one of those that remain, or an essential position covers it.
  by_cases hdisjoint : disjoint sum (choose primes rows).essential = true
  · obtain ⟨i, hi, hmem⟩ := least.hits sum (List.mem_filter.mpr ⟨hsum, hdisjoint⟩)
    exact ⟨i, hi, mem_union.mpr (Or.inl hmem)⟩
  · obtain ⟨i, hi, hmem⟩ := disjoint_eq_false_iff.mp (Bool.not_eq_true _ ▸ hdisjoint)
    exact ⟨i, hi, mem_union.mpr (Or.inr hmem)⟩

end Cover
end FacetQuery
