import FacetQuery.Proofs.Binary64.Integers
import FacetQuery.Proofs.Pattern.RangeReading
import FacetQuery.Proofs.Store.Ranges

/-!
# Ranges between integers

The ends of a range and the value of a record may be integers of 64 bits, but they are filed and
compared as the doubles nearest to them.  So a range between two integers finds the integers
between them, except that an integer is taken for an end when the two are nearest to the same
double (`NearestBefore`).  Below `2 ^ 53` this never happens: if the integer is less, or if both
ends are, exactly the integers between the ends are found (`nearestBefore_iff`).
-/

namespace FacetQuery

open RangeText

variable {i j n lo hi : Int64} {lower upper : Option Int64} {includeLower includeUpper : Bool}

/-! ### Comparing integers with the ends -/

/-- The range between two integers, each of which may be missing. -/
def ValueRange.between (lower upper : Option Int64) (includeLower includeUpper : Bool) :
    ValueRange :=
  ⟨lower.map .int, upper.map .int, includeLower, includeUpper⟩

/-- One integer comes before another one, or is the same if this is included. -/
def Before (isIncluded : Bool) (i j : Int) : Prop :=
  i < j ∨ isIncluded = true ∧ i = j

/-- One integer comes before another one, where the two are the same if they are nearest to the
same double. -/
def NearestBefore (isIncluded : Bool) (i j : Int) : Prop :=
  (i < j ∧ Binary64.ofInt i ≠ Binary64.ofInt j) ∨
    isIncluded = true ∧ Binary64.ofInt i = Binary64.ofInt j

/-- **Integers that are told apart come before each other as their doubles do.** -/
theorem nearestBefore_iff {isIncluded : Bool} {i j : Int} (h : Binary64.ToldApart i j) :
    NearestBefore isIncluded i j ↔ Before isIncluded i j := by
  rw [NearestBefore, Before, Binary64.ofInt_inj h, Ne, Binary64.ofInt_inj h,
    and_iff_left_of_imp fun hlt => Int.ne_of_lt hlt]

theorem nearestBefore_iff_orderKey {isIncluded : Bool} {i j : Int} :
    NearestBefore isIncluded i j ↔
      (Binary64.ofInt i).orderKey < (Binary64.ofInt j).orderKey ∨
        isIncluded = true ∧ (Binary64.ofInt i).orderKey = (Binary64.ofInt j).orderKey := by
  rw [NearestBefore, Binary64.orderKey_ofInt_lt, Binary64.orderKey_ofInt_inj]

/-- Integers are compared as the doubles nearest to them. -/
theorem Value.compare?_int (i j : Int64) :
    (Value.int i).compare? (.int j) =
      some (compare (Binary64.ofInt i.toInt).orderKey (Binary64.ofInt j.toInt).orderKey) := by
  change (Binary64.ofInt i.toInt).compare? (Binary64.ofInt j.toInt) = _
  rw [Binary64.compare?, Binary64.isNaN_ofInt, Binary64.isNaN_ofInt]
  rfl

namespace ValueRange

theorem mem_ends_between {e : Value} :
    e ∈ (between lower upper includeLower includeUpper).ends ↔
      (∃ lo ∈ lower, e = .int lo) ∨ ∃ hi ∈ upper, e = .int hi := by
  simp [mem_ends, between, eq_comm]

theorem exists_int_of_mem_ends {e : Value}
    (he : e ∈ (between lower upper includeLower includeUpper).ends) : ∃ i, e = .int i := by
  rcases mem_ends_between.mp he with ⟨i, -, rfl⟩ | ⟨i, -, rfl⟩
  · exact ⟨i, rfl⟩
  · exact ⟨i, rfl⟩

theorem uniform_between : (between lower upper includeLower includeUpper).Uniform := by
  right
  intro e he
  obtain ⟨i, rfl⟩ := exists_int_of_mem_ends he
  exact Value.isNumber_int i

/-- An end of the range is the nearest double of an integer. -/
theorem bind_asNumber?_eq_some {end? : Option Int64} {x : Binary64}
    (h : (end?.map Value.int).bind Value.asNumber? = some x) :
    ∃ i : Int64, x = Binary64.ofInt i.toInt := by
  obtain ⟨e, he, hx⟩ := Option.bind_eq_some_iff.mp h
  obtain ⟨i, -, rfl⟩ := Option.map_eq_some_iff.mp he
  exact ⟨i, (Option.some.inj hx).symm⟩

/-- No integer is nearest to the negative zero, so none is missed. -/
theorem not_misses_between (n : Int64) :
    ¬ (between lower upper includeLower includeUpper).Misses (.int n) := by
  rintro (⟨zero, -⟩ | ⟨-, zero⟩)
  · exact Binary64.ofInt_ne_negativeZero _ (Option.some.inj zero)
  · obtain ⟨i, hi⟩ := bind_asNumber?_eq_some zero
    exact Binary64.ofInt_ne_negativeZero _ hi.symm

/-- No integer is nearest to a NaN or to the negative zero, so none is found beside the range. -/
theorem not_adds_between (n : Int64) :
    ¬ (between lower upper includeLower includeUpper).Adds (.int n) := by
  have number {x : Binary64} (h : (Value.int n).asNumber? = some x) :
      Binary64.ofInt n.toInt = x := Option.some.inj h
  rintro (⟨-, date⟩ | ⟨h, nan, -, -, -⟩ | ⟨h, nan, -, -, -⟩ | ⟨-, zero, -, -, -⟩ | ⟨zero, -, -, -, -⟩)
  · cases date
  · rw [← number h, Binary64.isNaN_ofInt] at nan
    cases nan
  · rw [← number h, Binary64.isNaN_ofInt] at nan
    cases nan
  · obtain ⟨i, hi⟩ := bind_asNumber?_eq_some zero
    exact Binary64.ofInt_ne_negativeZero _ hi.symm
  · exact Binary64.ofInt_ne_negativeZero _ (number zero)

theorem aboveLower_between :
    (between lower upper includeLower includeUpper).aboveLower (.int n) = true ↔
      ∀ lo ∈ lower, NearestBefore includeLower lo.toInt n.toInt := by
  cases lower with
  | none => simp [aboveLower, between]
  | some lo =>
      have ends : (between (some lo) upper includeLower includeUpper).lower = some (.int lo) := rfl
      rw [aboveLower_iff ends (Value.compare?_int n lo)]
      simp only [Option.mem_some_iff, forall_eq', nearestBefore_iff_orderKey, between, and_comm]

theorem belowUpper_between :
    (between lower upper includeLower includeUpper).belowUpper (.int n) = true ↔
      ∀ hi ∈ upper, NearestBefore includeUpper n.toInt hi.toInt := by
  cases upper with
  | none => simp [belowUpper, between]
  | some hi =>
      have ends : (between lower (some hi) includeLower includeUpper).upper = some (.int hi) := rfl
      rw [belowUpper_iff ends (Value.compare?_int n hi)]
      simp only [Option.mem_some_iff, forall_eq', nearestBefore_iff_orderKey, between, and_comm]

/-- **Which integers a range between integers contains.** -/
theorem contains_between :
    (between lower upper includeLower includeUpper).contains (.int n) = true ↔
      (∀ lo ∈ lower, NearestBefore includeLower lo.toInt n.toInt) ∧
        ∀ hi ∈ upper, NearestBefore includeUpper n.toInt hi.toInt := by
  have kind : (between lower upper includeLower includeUpper).sameKind (.int n) = true := by
    rw [sameKind, isDateRange_of_numbers]
    · rfl
    · intro e he
      obtain ⟨i, rfl⟩ := exists_int_of_mem_ends he
      exact Value.isNumber_int i
  rw [contains, kind, Bool.true_and, Bool.and_eq_true, aboveLower_between, belowUpper_between]

end ValueRange

/-! ### What a store finds -/

namespace Store

variable {entityType property : String} {id : RecordId}

/-- What is found of a record whose only value is an integer. -/
theorem lookup_between (ops : List StoreOp)
    (indexed : .index entityType property ∈ ops.flatMap StoreOp.contributions)
    (only : StoreOp.GiveOnly ops entityType property id (.int n))
    (lower upper : Option Int64) (includeLower includeUpper : Bool) :
    ∃ ids, (build ops).lookup entityType property
        (.range (.between lower upper includeLower includeUpper)) = .ok ids ∧
      (id ∈ ids ↔ (∀ lo ∈ lower, NearestBefore includeLower lo.toInt n.toInt) ∧
        ∀ hi ∈ upper, NearestBefore includeUpper n.toInt hi.toInt) := by
  obtain ⟨ids, hids, hmem⟩ :=
    lookup_range_of_uniform (r := .between lower upper includeLower includeUpper) ops indexed
      ValueRange.uniform_between
  refine ⟨ids, hids, ?_⟩
  simp only [hmem, only _, exists_eq_left]
  rw [or_iff_left (ValueRange.not_adds_between n),
    and_iff_left (ValueRange.not_misses_between n), ValueRange.contains_between]

/-- **Integer ranges and records with an integer.**  The text of a range between integers is looked
up as this range, whatever its margins.  In an indexed property the lookup succeeds and finds a
record whose only value is an integer when this comes after the lower end and before the upper one,
where integers that are nearest to the same double count as the same.  An integer that is told apart
from the ends is found exactly when it lies between them. -/
theorem lookup_integer_range_text (ops : List StoreOp)
    (indexed : .index entityType property ∈ ops.flatMap StoreOp.contributions)
    (only : StoreOp.GiveOnly ops entityType property id (.int n))
    (lower upper : Option Int64) (includeLower includeUpper : Bool) (m : Margins) :
    let r := ValueRange.between lower upper includeLower includeUpper
    ValueMatch.classify (.text (r.write m)) = .ok (.range r) ∧
      ∃ ids, (build ops).lookup entityType property (.range r) = .ok ids ∧
        (id ∈ ids ↔ (∀ lo ∈ lower, NearestBefore includeLower lo.toInt n.toInt) ∧
          ∀ hi ∈ upper, NearestBefore includeUpper n.toInt hi.toInt) ∧
        ((∀ lo ∈ lower, Binary64.ToldApart lo.toInt n.toInt) →
          (∀ hi ∈ upper, Binary64.ToldApart n.toInt hi.toInt) →
          (id ∈ ids ↔ (∀ lo ∈ lower, Before includeLower lo.toInt n.toInt) ∧
            ∀ hi ∈ upper, Before includeUpper n.toInt hi.toInt)) := by
  intro r
  obtain ⟨ids, hids, hmem⟩ :=
    lookup_between ops indexed only lower upper includeLower includeUpper
  have ints : ∀ e ∈ r.ends, ∃ i, e = .int i := fun e he => ValueRange.exists_int_of_mem_ends he
  refine ⟨ValueMatch.classify_write m (Or.inl ints), ids, hids, hmem, ?_⟩
  intro apartLower apartUpper
  rw [hmem]
  refine and_congr (forall₂_congr fun lo hlo => ?_) (forall₂_congr fun hi hhi => ?_)
  · exact nearestBefore_iff (apartLower lo hlo)
  · exact nearestBefore_iff (apartUpper hi hhi)

/-- The greatest integer up to which all are told apart, and at the ends itself and the one below. -/
theorem lookup_integer_range_text_of_greatest_safe :
    let safe : Int64 := 9007199254740992
    let ops : List StoreOp :=
      [.insert "shoe" 1 [("price", .int safe)], .createRangeIndex "shoe" "price",
        .insert "shoe" 2 [("price", .int Int64.maxValue)]]
    let r := ValueRange.between (some 9007199254740991) (some safe) false true
    let m : Margins := { afterComma := Text.oneBlank ' ' (by decide) }
    .index "shoe" "price" ∈ ops.flatMap StoreOp.contributions ∧
      StoreOp.GiveOnly ops "shoe" "price" 1 (.int safe) ∧
      r.write m = "(9007199254740991, 9007199254740992]" ∧
      ValueMatch.classify (.text (r.write m)) = .ok (.range r) ∧
      ∃ ids, (build ops).lookup "shoe" "price" (.range r) = .ok ids ∧ 1 ∈ ids := by
  intro safe ops r m
  have indexed : .index "shoe" "price" ∈ ops.flatMap StoreOp.contributions := by decide
  have only : StoreOp.GiveOnly ops "shoe" "price" 1 (.int safe) := by
    intro v
    simp [ops, StoreOp.contributions]
  obtain ⟨written, ids, hids, -, hmem⟩ := lookup_integer_range_text ops indexed only
    (some 9007199254740991) (some safe) false true m
  refine ⟨indexed, only, by decide, written, ids, hids, (hmem ?_ ?_).mpr ⟨?_, ?_⟩⟩
  · rintro _ ⟨⟩
    exact Or.inl (by decide)
  · rintro _ ⟨⟩
    exact Or.inr (Or.inr ⟨by decide, by decide⟩)
  · rintro _ ⟨⟩
    exact Or.inl (by decide)
  · rintro _ ⟨⟩
    exact Or.inr ⟨rfl, rfl⟩

/-- From `2 ^ 53` on, an integer beside an end may be found although it is not in the range. -/
theorem lookup_integer_range_finds_neighbour :
    let ops : List StoreOp :=
      [.createRangeIndex "shoe" "price", .insert "shoe" 1 [("price", .int 9007199254740992)]]
    let r := ValueRange.between (some 9007199254740993) (some 9007199254740993) true true
    .index "shoe" "price" ∈ ops.flatMap StoreOp.contributions ∧
      StoreOp.GiveOnly ops "shoe" "price" 1 (.int 9007199254740992) ∧
      ValueMatch.classify (.text "[9007199254740993,9007199254740993]") = .ok (.range r) ∧
      ¬ ∃ ids, (build ops).lookup "shoe" "price" (.range r) = .ok ids ∧
        (1 ∈ ids ↔ Before true 9007199254740993 9007199254740992 ∧
          Before true 9007199254740992 9007199254740993) := by
  intro ops r
  have indexed : .index "shoe" "price" ∈ ops.flatMap StoreOp.contributions := by decide
  have only : StoreOp.GiveOnly ops "shoe" "price" 1 (.int 9007199254740992) := by
    intro v
    simp [ops, StoreOp.contributions]
  have same : Binary64.ofInt 9007199254740993 = Binary64.ofInt 9007199254740992 := by
    decide +kernel
  refine ⟨indexed, only, by decide, ?_⟩
  rintro ⟨ids, hids, hmem⟩
  obtain ⟨found, hfound, hfinds⟩ := lookup_between ops indexed only
    (some 9007199254740993) (some 9007199254740993) true true
  obtain rfl := Except.ok.inj (hids.symm.trans hfound)
  have hid : 1 ∈ ids := hfinds.mpr
    ⟨fun lo hlo => Or.inr ⟨rfl, Option.some.inj hlo ▸ same⟩,
      fun hi hhi => Or.inr ⟨rfl, Option.some.inj hhi ▸ same.symm⟩⟩
  obtain ⟨habove, -⟩ := hmem.mp hid
  revert habove
  rw [Before]
  decide

end Store
end FacetQuery
