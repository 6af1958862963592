import FacetQuery.Proofs.Cover.PositionSet

/-!
# Products of sums list the minimal hitting sets

A set of positions hits a list of sums when it has a member in common with each of them.
`expand_exact` says that expanding the sums as a product lists exactly the minimal hitting sets,
and each of them once.  The invariant of the expansion is this statement itself, for the sums
multiplied so far (`Expanded`).

### What is load-bearing

* Absorption goes through the sets by size, so a set that is met later is never contained in
  one that has been kept (`Absorbed.keepMinimal`).
* Nothing is lost by absorbing after each factor: a minimal hitting set of one sum more is a
  minimal hitting set of the sums before it, with at most one member added
  (`MinimalHitting.mem_extend`).
* The sums themselves are absorbed before the expansion starts, and this changes no hitting set
  (`hits_absorb`).
-/

namespace FacetQuery
namespace Cover

open PositionSet

variable {sets sums products seen kept : List PositionSet} {s t sum : PositionSet}

/-! ### Absorption -/

/-- A set of a list that contains no other set of the list. -/
structure MinimalIn (sets : List PositionSet) (s : PositionSet) : Prop where
  mem : s ∈ sets
  minimal : ∀ t ∈ sets, t ⊆ s → t = s

/-- What absorption keeps of the sets that it has seen. -/
structure Absorbed (seen kept : List PositionSet) : Prop where
  nodup : kept.Nodup
  subset : kept ⊆ seen
  /-- A set that is dropped contains one that is kept. -/
  below : ∀ s ∈ seen, ∃ k ∈ kept, k ⊆ s
  antichain : ∀ k ∈ kept, ∀ l ∈ kept, k ⊆ l → k = l

/-- The sets that are kept are the minimal ones. -/
theorem Absorbed.mem_iff (h : Absorbed seen kept) (ascending : ∀ s ∈ seen, Ascending s) :
    s ∈ kept ↔ MinimalIn seen s := by
  constructor
  · intro hs
    refine ⟨h.subset hs, fun t ht hts => ?_⟩
    obtain ⟨k, hk, hkt⟩ := h.below t ht
    obtain rfl := h.antichain k hk s hs (List.Subset.trans hkt hts)
    exact (ascending t ht).eq_of_subset (ascending k (h.subset hk)) hts hkt
  · intro hs
    obtain ⟨k, hk, hks⟩ := h.below s hs.mem
    rw [← hs.minimal k (h.subset hk) hks]
    exact hk

/-- A set that contains a kept one is dropped: the kept one stands for it from now on. -/
theorem Absorbed.drop (h : Absorbed seen kept) {k : PositionSet} (hk : k ∈ kept) (hks : k ⊆ s) :
    Absorbed (seen ++ [s]) kept := by
  refine ⟨h.nodup, fun t ht => List.mem_append_left _ (h.subset ht), ?_, h.antichain⟩
  intro t ht
  rcases List.mem_append.mp ht with ht | ht
  · exact h.below t ht
  · rw [List.mem_singleton.mp ht]
    exact ⟨k, hk, hks⟩

/-- A set that contains no kept one is kept, if it is not smaller than those seen before. -/
theorem Absorbed.append (h : Absorbed seen kept) (ascending : ∀ t ∈ seen ++ [s], Ascending t)
    (larger : ∀ t ∈ seen, t.length ≤ s.length) (new : ∀ k ∈ kept, ¬ k ⊆ s) :
    Absorbed (seen ++ [s]) (kept ++ [s]) := by
  have hself : s ∈ [s] := List.mem_singleton.mpr rfl
  have hs : Ascending s := ascending s (List.mem_append_right _ hself)
  refine ⟨?_, fun t ht => ?_, fun t ht => ?_, fun k hk l hl hkl => ?_⟩
  · refine List.nodup_append.mpr ⟨h.nodup, List.nodup_singleton s, fun k hk l hl heq => ?_⟩
    rw [List.mem_singleton.mp hl] at heq
    exact new k hk (heq ▸ List.Subset.refl s)
  · rcases List.mem_append.mp ht with ht | ht
    · exact List.mem_append_left _ (h.subset ht)
    · exact List.mem_append_right _ ht
  · rcases List.mem_append.mp ht with ht | ht
    · obtain ⟨k, hk, hkt⟩ := h.below t ht
      exact ⟨k, List.mem_append_left _ hk, hkt⟩
    · exact ⟨t, List.mem_append_right _ ht, List.Subset.refl t⟩
  · rw [List.mem_append, List.mem_singleton] at hk hl
    rcases hk with hk | rfl <;> rcases hl with hl | rfl
    · exact h.antichain k hk l hl hkl
    · exact absurd hkl (new k hk)
    · -- The new set is no larger than the kept one around it, so the two are the same.
      have hl' := ascending l (List.mem_append_left _ (h.subset hl))
      exact hs.eq_of_length_le hl' hkl (larger l (h.subset hl))
    · rfl

/-- **One step of absorption.**  The new set is not smaller than those seen before. -/
theorem Absorbed.keepMinimal (h : Absorbed seen kept)
    (ascending : ∀ t ∈ seen ++ [s], Ascending t) (larger : ∀ t ∈ seen, t.length ≤ s.length) :
    Absorbed (seen ++ [s]) (keepMinimal kept s) := by
  rw [Cover.keepMinimal]
  split
  · rename_i contains
    obtain ⟨k, hk, hks⟩ := List.any_eq_true.mp contains
    exact h.drop hk (subset_iff.mp hks)
  · rename_i new
    refine h.append ascending larger fun k hk hks => new ?_
    exact List.any_eq_true.mpr ⟨k, hk, subset_iff.mpr hks⟩

theorem Absorbed.foldl (h : Absorbed seen kept) (ascending : ∀ t ∈ seen ++ sets, Ascending t)
    (bySize : (seen ++ sets).Pairwise fun t u => t.length ≤ u.length) :
    Absorbed (seen ++ sets) (sets.foldl Cover.keepMinimal kept) := by
  induction sets generalizing seen kept with
  | nil => rwa [List.append_nil]
  | cons s sets ih =>
      rw [List.append_cons] at ascending bySize ⊢
      refine ih (h.keepMinimal (fun t ht => ascending t (List.mem_append_left _ ht)) ?_)
        ascending bySize
      exact fun t ht => (List.pairwise_append.mp (List.pairwise_append.mp bySize).1).2.2 t ht s
        (List.mem_singleton.mpr rfl)

private theorem pairwise_bySize (sets : List PositionSet) :
    (sets.mergeSort fun s t => compareSize s t != .gt).Pairwise
      fun s t => s.length ≤ t.length := by
  have isLE (s t : PositionSet) : (compareSize s t != .gt) = (compareSize s t).isLE := by
    cases compareSize s t <;> rfl
  simp only [isLE]
  refine List.Pairwise.imp (fun {s t} hle => ?_) (List.pairwise_mergeSort ?_ ?_ sets)
  · exact length_le_of_compareSize (Ordering.isLE_iff_ne_gt.mp hle)
  · exact fun s t u => Std.TransCmp.isLE_trans
  · intro s t
    have hswap : compareSize t s = (compareSize s t).swap := Std.OrientedCmp.eq_swap
    rw [hswap]
    cases compareSize s t <;> rfl

theorem absorbed_absorb (ascending : ∀ s ∈ sets, Ascending s) : Absorbed sets (absorb sets) := by
  have start : Absorbed [] [] :=
    ⟨List.nodup_nil, List.Subset.refl [], fun s hs => absurd hs List.not_mem_nil,
      fun k hk => absurd hk List.not_mem_nil⟩
  have hrun := start.foldl (fun s hs => ascending s (List.mem_mergeSort.mp hs))
    (pairwise_bySize sets)
  refine ⟨hrun.nodup, fun s hs => List.mem_mergeSort.mp (hrun.subset hs), fun s hs => ?_,
    hrun.antichain⟩
  exact hrun.below s (List.mem_mergeSort.mpr hs)

/-- **Absorption keeps the minimal sets.** -/
theorem mem_absorb (ascending : ∀ s ∈ sets, Ascending s) : s ∈ absorb sets ↔ MinimalIn sets s :=
  (absorbed_absorb ascending).mem_iff ascending

/-! ### Hitting sets -/

def Hits (sums : List PositionSet) (s : PositionSet) : Prop :=
  ∀ sum ∈ sums, ∃ i ∈ sum, i ∈ s

/-- A hitting set that contains no other one. -/
structure MinimalHitting (sums : List PositionSet) (s : PositionSet) : Prop where
  ascending : Ascending s
  hits : Hits sums s
  minimal : ∀ t, Ascending t → Hits sums t → t ⊆ s → t = s

theorem Hits.mono (h : Hits sums s) (hst : s ⊆ t) : Hits sums t := by
  intro sum hsum
  obtain ⟨i, hi, his⟩ := h sum hsum
  exact ⟨i, hi, hst his⟩

theorem hits_append_singleton : Hits (sums ++ [sum]) s ↔ Hits sums s ∧ ∃ i ∈ sum, i ∈ s := by
  rw [Hits, Hits, List.forall_mem_append, List.forall_mem_singleton]

/-- A hitting set contains a minimal one. -/
theorem Hits.exists_minimal (h : Hits sums s) (hs : Ascending s) :
    ∃ m, MinimalHitting sums m ∧ m ⊆ s := by
  induction hn : s.length using Nat.strongRecOn generalizing s with
  | ind n ih =>
    by_cases minimal : ∀ t, Ascending t → Hits sums t → t ⊆ s → t = s
    · exact ⟨s, ⟨hs, h, minimal⟩, List.Subset.refl s⟩
    · push Not at minimal
      obtain ⟨t, ht, hit, hts, hne⟩ := minimal
      -- A proper subset is shorter, because both are ascending.
      have hlt : t.length < n := by
        rw [← hn]
        exact Nat.lt_of_not_le fun hle => hne (ht.eq_of_length_le hs hts hle)
      obtain ⟨m, hm, hmt⟩ := ih t.length hlt hit ht rfl
      exact ⟨m, hm, List.Subset.trans hmt hts⟩

/-- Absorbing the sums changes no hitting set. -/
theorem hits_absorb (ascending : ∀ sum ∈ sums, Ascending sum) :
    Hits (absorb sums) s ↔ Hits sums s := by
  have h := absorbed_absorb ascending
  constructor
  · intro hits sum hsum
    obtain ⟨k, hk, hsub⟩ := h.below sum hsum
    obtain ⟨i, hi, his⟩ := hits k hk
    exact ⟨i, hsub hi, his⟩
  · exact fun hits sum hsum => hits sum (h.subset hsum)

/-! ### Expansion -/

/-- A hitting set with a member of one sum more. -/
theorem Hits.insert {i : Nat} (h : Hits sums s) (hi : i ∈ sum) :
    Hits (sums ++ [sum]) (PositionSet.insert i s) := by
  refine hits_append_singleton.mpr ⟨h.mono fun j hj => mem_insert.mpr (Or.inr hj), i, hi, ?_⟩
  exact mem_insert.mpr (Or.inl rfl)

/-- What multiplying adds to a minimal hitting set hits the new sum too. -/
theorem MinimalHitting.of_mem_extend {product : PositionSet} (h : MinimalHitting sums product)
    (hs : s ∈ extend sum product) : Ascending s ∧ Hits (sums ++ [sum]) s := by
  rw [extend] at hs
  split at hs
  · obtain ⟨i, hi, rfl⟩ := List.mem_map.mp hs
    exact ⟨h.ascending.insert i, h.hits.insert hi⟩
  · rename_i meets
    obtain rfl := List.mem_singleton.mp hs
    obtain ⟨i, hi, hisum⟩ := disjoint_eq_false_iff.mp (Bool.not_eq_true _ ▸ meets)
    exact ⟨h.ascending, hits_append_singleton.mpr ⟨h.hits, i, hisum, hi⟩⟩

/-- **Every minimal hitting set of one sum more comes from multiplying.**  It contains a minimal
hitting set of the sums before, and either this one meets the new sum or one member more does. -/
theorem MinimalHitting.mem_extend (h : MinimalHitting (sums ++ [sum]) s) :
    ∃ product, MinimalHitting sums product ∧ s ∈ extend sum product := by
  obtain ⟨hits, i, hi, his⟩ := hits_append_singleton.mp h.hits
  obtain ⟨product, hproduct, hsub⟩ := hits.exists_minimal h.ascending
  refine ⟨product, hproduct, ?_⟩
  rw [extend]
  split
  · -- With the member that meets the new sum the product is a hitting set below the minimal one.
    have hits' : Hits (sums ++ [sum]) (PositionSet.insert i product) := hproduct.hits.insert hi
    refine List.mem_map.mpr ⟨i, hi, h.minimal _ (hproduct.ascending.insert i) hits' fun j hj => ?_⟩
    rcases mem_insert.mp hj with rfl | hj
    · exact his
    · exact hsub hj
  · -- The product is itself a hitting set below the minimal one.
    rename_i meets
    obtain ⟨j, hj, hjsum⟩ := disjoint_eq_false_iff.mp (Bool.not_eq_true _ ▸ meets)
    have hits' : Hits (sums ++ [sum]) product :=
      hits_append_singleton.mpr ⟨hproduct.hits, j, hjsum, hj⟩
    rw [h.minimal product hproduct.ascending hits' hsub]
    exact List.mem_singleton.mpr rfl

/-- The products are the minimal hitting sets of the sums, each listed once.  This is the invariant
of the expansion. -/
structure Expanded (sums products : List PositionSet) : Prop where
  nodup : products.Nodup
  mem_iff : ∀ s, s ∈ products ↔ MinimalHitting sums s

/-- Before the first sum there is one product, the empty set: it hits everything there is. -/
theorem expanded_nil : Expanded [] [[]] := by
  refine ⟨List.nodup_singleton _, fun s => ?_⟩
  rw [List.mem_singleton]
  constructor
  · rintro rfl
    refine ⟨ascending_nil, fun sum hsum => absurd hsum List.not_mem_nil, fun t _ _ ht => ?_⟩
    exact List.subset_nil.mp ht
  · intro hs
    exact (hs.minimal [] ascending_nil (fun sum hsum => absurd hsum List.not_mem_nil)
      (List.nil_subset s)).symm

/-- **Multiplying by one sum** leads from the minimal hitting sets to those of one sum more. -/
theorem Expanded.multiply (h : Expanded sums products) (sum : PositionSet) :
    Expanded (sums ++ [sum]) (multiply products sum) := by
  have sound (t : PositionSet) (ht : t ∈ products.flatMap (extend sum)) :
      Ascending t ∧ Hits (sums ++ [sum]) t := by
    obtain ⟨product, hproduct, ht⟩ := List.mem_flatMap.mp ht
    exact ((h.mem_iff product).mp hproduct).of_mem_extend ht
  have complete (t : PositionSet) (ht : MinimalHitting (sums ++ [sum]) t) :
      t ∈ products.flatMap (extend sum) := by
    obtain ⟨product, hproduct, ht⟩ := ht.mem_extend
    exact List.mem_flatMap.mpr ⟨product, (h.mem_iff product).mpr hproduct, ht⟩
  refine ⟨(absorbed_absorb fun t ht => (sound t ht).1).nodup, fun s => ?_⟩
  rw [Cover.multiply, mem_absorb fun t ht => (sound t ht).1]
  constructor
  · intro hs
    refine ⟨(sound s hs.mem).1, (sound s hs.mem).2, fun t ht hits hts => ?_⟩
    -- A hitting set below `s` need not be among the products, but it contains one that is.
    obtain ⟨m, hm, hmt⟩ := hits.exists_minimal ht
    obtain rfl := hs.minimal m (complete m hm) (List.Subset.trans hmt hts)
    exact ht.eq_of_subset hm.ascending hts hmt
  · intro hs
    exact ⟨complete s hs, fun t ht hts => hs.minimal t (sound t ht).1 (sound t ht).2 hts⟩

theorem Expanded.foldl (h : Expanded sums products) (more : List PositionSet) :
    Expanded (sums ++ more) (more.foldl Cover.multiply products) := by
  induction more generalizing sums products with
  | nil => rwa [List.append_nil]
  | cons sum more ih =>
      rw [List.append_cons]
      exact ih (h.multiply sum)

theorem expanded_expand (ascending : ∀ sum ∈ sums, Ascending sum) :
    Expanded sums (expand sums) := by
  have hrun : Expanded (absorb sums) (expand sums) := expanded_nil.foldl (absorb sums)
  refine ⟨hrun.nodup, fun s => (hrun.mem_iff s).trans ⟨fun hs => ?_, fun hs => ?_⟩⟩
  · exact ⟨hs.ascending, (hits_absorb ascending).mp hs.hits, fun t ht hits =>
      hs.minimal t ht ((hits_absorb ascending).mpr hits)⟩
  · exact ⟨hs.ascending, (hits_absorb ascending).mpr hs.hits, fun t ht hits =>
      hs.minimal t ht ((hits_absorb ascending).mp hits)⟩

/-- **The expansion lists the minimal hitting sets**, and nothing else. -/
theorem mem_expand (ascending : ∀ sum ∈ sums, Ascending sum) :
    s ∈ expand sums ↔ MinimalHitting sums s :=
  (expanded_expand ascending).mem_iff s

/-- **Absorption and expansion are exact.**  Absorbing a list of sets keeps those that contain no
other one of the list, and expanding a list of sums yields those that have a member in common with
every sum and contain no other such set.  Nothing else is listed, and nothing twice, in whatever
order and however often the sets and the sums are given. -/
theorem expand_exact (ascending : ∀ sum ∈ sums, Ascending sum)
    (ascending' : ∀ s ∈ sets, Ascending s) :
    ((expand sums).Nodup ∧ ∀ s, s ∈ expand sums ↔ MinimalHitting sums s) ∧
      (absorb sets).Nodup ∧ ∀ s, s ∈ absorb sets ↔ MinimalIn sets s := by
  have expanded := expanded_expand ascending
  exact ⟨⟨expanded.nodup, expanded.mem_iff⟩, (absorbed_absorb ascending').nodup,
    fun s => mem_absorb ascending'⟩

/-- Three sums of which every two have a member in common, one of them given twice, and a list of
sets in which one set contains another one. -/
theorem expand_exact_of_repeated_sum :
    let sums : List PositionSet := [[1, 2], [0, 1], [0, 2], [1, 2]]
    let sets : List PositionSet := [[1, 2], [1], [2, 3], [1]]
    (∀ sum ∈ sums, Ascending sum) ∧ (∀ s ∈ sets, Ascending s) ∧
      ((expand sums).Nodup ∧ ∀ s, s ∈ expand sums ↔ MinimalHitting sums s) ∧
      (absorb sets).Nodup ∧ ∀ s, s ∈ absorb sets ↔ MinimalIn sets s := by
  intro sums sets
  have ascending : ∀ sum ∈ sums, Ascending sum := by
    unfold Ascending
    decide
  have ascending' : ∀ s ∈ sets, Ascending s := by
    unfold Ascending
    decide
  exact ⟨ascending, ascending', expand_exact ascending ascending'⟩

end Cover
end FacetQuery
