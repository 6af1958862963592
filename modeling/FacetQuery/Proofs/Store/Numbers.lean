import Mathlib.Algebra.Order.Field.Rat
import FacetQuery.Proofs.Binary64.Integers
import FacetQuery.Proofs.Store.Contributions

/-!
# Equal numbers of different kinds

A lookup of a number goes by equality of values, under which `1` and `1.0` are different, but it
also looks for the same number as a value of the other kind (`numericTwins`).  Read as rational
numbers (`Value.toRat?`), what is looked up and what is found are equal, and all equal numbers are
found (`ValueMatch.finds_iff_equal`), with these exceptions:

* Doubles are equal when their bit patterns are, and so the two zeros are different.  The negative
  zero is found by itself only; it finds itself and the integer zero, but not the positive zero.
* Two kinds of lookups are left open (`Value.LeftOpen`).  An integer is also looked up as the double
  nearest to it, even if this is another number; and a double is not looked up as the least integer
  of 64 bits, even if it is this number.

### What is load-bearing

A finite double is given by its number and its sign bit, so a double that stands for an integer is
the nearest one to it unless it is the negative zero (`Binary64.ofInt_eq_of_scaled`).
-/

namespace FacetQuery

variable {a b : Value} {i j : Int64} {x y : Binary64} {p q : ℚ}

/-! ### Numbers as rational numbers -/

namespace Binary64

/-- The rational number that a finite double stands for. -/
def toRat (x : Binary64) : ℚ :=
  x.scaled / scaledOne

private theorem scaledOne_ne_zero : (scaledOne : ℚ) ≠ 0 :=
  Nat.cast_ne_zero.mpr scaledOne_pos.ne'

theorem toRat_inj : x.toRat = y.toRat ↔ x.scaled = y.scaled := by
  rw [toRat, toRat, div_left_inj' scaledOne_ne_zero, Rat.intCast_inj]

theorem intCast_eq_toRat {k : Int} : (k : ℚ) = x.toRat ↔ x.scaled = k * scaledOne := by
  rw [toRat, eq_div_iff scaledOne_ne_zero, eq_comm]
  norm_cast

end Binary64

/-- The rational number that a value stands for, if it is an integer or a finite double. -/
def Value.toRat? : Value → Option ℚ
  | .int i => some i.toInt
  | .float x => if x.isFinite then some x.toRat else none
  | _ => none

theorem Value.toRat?_float : (Value.float x).toRat? = some p ↔ x.isFinite = true ∧ x.toRat = p := by
  rw [toRat?]
  split <;> simp_all

/-- A value that stands for a rational number is an integer or a finite double. -/
theorem Value.eq_int_or_float (h : a.toRat? = some p) :
    (∃ i, a = .int i ∧ (i.toInt : ℚ) = p) ∨
      ∃ x, a = .float x ∧ x.isFinite = true ∧ x.toRat = p := by
  cases a with
  | int i => exact Or.inl ⟨i, rfl, Option.some.inj h⟩
  | float x => exact Or.inr ⟨x, rfl, toRat?_float.mp h⟩
  | bool c => cases h
  | text s => cases h
  | date d => cases h

/-- A lookup that is left open: of an integer at the nearest double, if this is another number, and
of a double at the least integer, if this is the same number. -/
def Value.LeftOpen : Value → Value → Prop
  | .int i, .float y => y = Binary64.ofInt i.toInt ∧ y.toRat ≠ i.toInt
  | .float x, .int j => x.toRat = j.toInt ∧ j = Int64.minValue
  | _, _ => False

/-! ### What is looked up for a number -/

/-- The least integer of 64 bits is the only one whose absolute value needs the 64th bit. -/
theorem natAbs_toInt_lt_iff (j : Int64) :
    j.toInt.natAbs < Nat.pow 2 63 ↔ j ≠ Int64.minValue := by
  have hbits : Nat.pow 2 63 = 9223372036854775808 := rfl
  have low := Int64.le_toInt j
  have high := Int64.toInt_lt j
  rw [hbits, Ne, ← Int64.toInt_inj, Int64.toInt_minValue]
  omega

theorem toInt_ofInt_of_natAbs_lt {k : Int} (h : k.natAbs < Nat.pow 2 63) :
    (Int64.ofInt k).toInt = k := by
  have hbits : Nat.pow 2 63 = 9223372036854775808 := rfl
  rw [hbits] at h
  exact Int64.toInt_ofInt_of_le (by omega) (by omega)

namespace ValueMatch

theorem finds_int_int : (exact (.int i)).Finds (.int j) ↔ i = j := by
  simp [Finds, numericTwins, eq_comm]

theorem finds_int_float :
    (exact (.int i)).Finds (.float y) ↔ y = Binary64.ofInt i.toInt := by
  simp [Finds, numericTwins]

theorem finds_float_float : (exact (.float x)).Finds (.float y) ↔ x = y := by
  rw [Finds, numericTwins]
  split
  · split <;> simp [eq_comm]
  · simp [eq_comm]

/-- A double is looked up as the integer that it is equal to, unless this is the least one. -/
theorem finds_float_int :
    (exact (.float x)).Finds (.int j) ↔ x.toInt? = some j.toInt ∧ j ≠ Int64.minValue := by
  rw [Finds, numericTwins]
  cases hx : x.toInt? with
  | none => simp
  | some k =>
      dsimp only
      rw [Option.some.injEq, ← natAbs_toInt_lt_iff]
      split
      · rename_i hk
        simp only [List.mem_cons, reduceCtorEq, false_or, List.not_mem_nil, or_false,
          Value.int.injEq, ← Int64.toInt_inj, toInt_ofInt_of_natAbs_lt hk]
        exact ⟨fun h => ⟨h.symm, h ▸ hk⟩, fun h => h.1.symm⟩
      · rename_i hk
        refine iff_of_false (by simp) ?_
        rintro ⟨rfl, h⟩
        exact hk h

end ValueMatch

namespace Binary64

/-- The nearest double of an integer is the one that is equal to it, if there is one. -/
theorem eq_ofInt_iff {k : Int} (hy : y.isFinite = true)
    (closed : ¬ (y = ofInt k ∧ y.toRat ≠ k)) :
    y = ofInt k ↔ (k : ℚ) = y.toRat ∧ y ≠ negativeZero := by
  constructor
  · intro h
    refine ⟨?_, h ▸ ofInt_ne_negativeZero k⟩
    by_contra hne
    exact closed ⟨h, Ne.symm hne⟩
  · rintro ⟨heq, hzero⟩
    exact (ofInt_eq_of_scaled hy hzero (intCast_eq_toRat.mp heq)).symm

/-- Finite doubles are the same when they are equal, the two zeros apart. -/
theorem eq_iff_toRat (hx : x.isFinite = true) (hy : y.isFinite = true) :
    x = y ↔ x.toRat = y.toRat ∧ (y = negativeZero → x = y) ∧
      (x = negativeZero → y ≠ positiveZero) := by
  rw [toRat_inj, scaled_inj hx hy]
  constructor
  · rintro rfl
    refine ⟨Or.inl rfl, fun _ => rfl, ?_⟩
    rintro rfl
    decide
  · rintro ⟨heq | hzeros, hstored, hsearched⟩
    · exact heq
    · rcases oppositeZeros_iff.mp hzeros with ⟨hx, hy⟩ | ⟨-, hy⟩
      · exact absurd hy (hsearched hx)
      · exact hstored hy

end Binary64

/-- **A lookup of a number finds the equal numbers**, the negative zero apart. -/
theorem ValueMatch.finds_iff_equal (ha : a.toRat? = some p) (hb : b.toRat? = some q)
    (closed : ¬ a.LeftOpen b) :
    (exact a).Finds b ↔ p = q ∧ (b = .float .negativeZero → a = b) ∧
      (a = .float .negativeZero → b ≠ .float .positiveZero) := by
  rcases Value.eq_int_or_float ha with ⟨i, rfl, rfl⟩ | ⟨x, rfl, hx, rfl⟩
  · rcases Value.eq_int_or_float hb with ⟨j, rfl, rfl⟩ | ⟨y, rfl, hy, rfl⟩
    · rw [finds_int_int, Rat.intCast_inj, Int64.toInt_inj]
      simp
    · rw [finds_int_float, Binary64.eq_ofInt_iff hy closed]
      simp
  · rcases Value.eq_int_or_float hb with ⟨j, rfl, rfl⟩ | ⟨y, rfl, hy, rfl⟩
    · rw [finds_float_int, Binary64.toInt?_eq_some_iff, ← Binary64.intCast_eq_toRat]
      constructor
      · rintro ⟨⟨-, heq⟩, -⟩
        exact ⟨heq.symm, by simp⟩
      · rintro ⟨heq, -⟩
        exact ⟨⟨hx, heq.symm⟩, fun least => closed ⟨heq, least⟩⟩
    · rw [finds_float_float, Binary64.eq_iff_toRat hx hy]
      simp

/-! ### What a store finds -/

namespace Store

/-- **A lookup of a value** succeeds and finds the records with a value that it finds. -/
theorem mem_lookup_exact (ops : List StoreOp) (entityType property : String) (a : Value) :
    ∃ ids, (build ops).lookup entityType property (.exact a) = .ok ids ∧
      ∀ id, id ∈ ids ↔ ∃ v, (ValueMatch.exact a).Finds v ∧
        .fact entityType id property v ∈ ops.flatMap StoreOp.contributions := by
  simp only [← holds_build, Holds]
  cases ht : (build ops).tables[entityType]? with
  | none =>
      refine ⟨∅, by rw [lookup, ht], fun id => iff_of_false (IdSet.not_mem_empty id) ?_⟩
      rintro ⟨v, -, hv⟩
      rw [table, Std.HashMap.getD_eq_getD_getElem?, ht] at hv
      exact Table.not_has_empty hv
  | some t =>
      refine ⟨_, by rw [lookup, ht], fun id => ?_⟩
      rw [table_of_some ht]
      exact Table.mem_lookup_column

/-- What a lookup finds of a record that has one value. -/
theorem lookup_exact_of_giveOnly {ops : List StoreOp} {entityType property : String}
    {id : RecordId} (only : StoreOp.GiveOnly ops entityType property id b) (a : Value) :
    ∃ ids, (build ops).lookup entityType property (.exact a) = .ok ids ∧
      (id ∈ ids ↔ (ValueMatch.exact a).Finds b) := by
  obtain ⟨ids, hids, hmem⟩ := mem_lookup_exact ops entityType property a
  refine ⟨ids, hids, ?_⟩
  simp only [hmem, only _, exists_eq_right]

/-- **Equality of numbers.**  A lookup of a number succeeds, and it finds a record whose only value
is a number when the two numbers are equal, whatever their kinds are.  The negative zero is the
exception: it is found by itself only, and it does not find the positive zero.  Of any other two
numbers, each finds the other or neither does.  The lookups of `Value.LeftOpen` are left open. -/
theorem lookup_number (ha : a.toRat? = some p) (hb : b.toRat? = some q)
    (closed : ¬ a.LeftOpen b) :
    (∀ (ops : List StoreOp) (entityType property : String) (id : RecordId),
      StoreOp.GiveOnly ops entityType property id b →
        ∃ ids, (build ops).lookup entityType property (.exact a) = .ok ids ∧
          (id ∈ ids ↔ p = q ∧ (b = .float .negativeZero → a = b) ∧
            (a = .float .negativeZero → b ≠ .float .positiveZero))) ∧
    (¬ b.LeftOpen a → a ≠ .float .negativeZero → b ≠ .float .negativeZero →
      ∀ (ops ops' : List StoreOp) (entityType property entityType' property' : String)
        (id id' : RecordId), StoreOp.GiveOnly ops entityType property id b →
        StoreOp.GiveOnly ops' entityType' property' id' a →
          ∃ ids ids', (build ops).lookup entityType property (.exact a) = .ok ids ∧
            (build ops').lookup entityType' property' (.exact b) = .ok ids' ∧
            (id ∈ ids ↔ id' ∈ ids')) := by
  refine ⟨fun ops entityType property id only => ?_, fun closed' hna hnb => ?_⟩
  · obtain ⟨ids, hids, hmem⟩ := lookup_exact_of_giveOnly only a
    exact ⟨ids, hids, hmem.trans (ValueMatch.finds_iff_equal ha hb closed)⟩
  · intro ops ops' entityType property entityType' property' id id' only only'
    obtain ⟨ids, hids, hmem⟩ := lookup_exact_of_giveOnly only a
    obtain ⟨ids', hids', hmem'⟩ := lookup_exact_of_giveOnly only' b
    refine ⟨ids, ids', hids, hids', ?_⟩
    rw [hmem, hmem', ValueMatch.finds_iff_equal ha hb closed,
      ValueMatch.finds_iff_equal hb ha closed']
    simp [hna, hnb, eq_comm]

/-- The greatest integer up to which all are doubles, looked up as a double and as an integer. -/
theorem lookup_number_of_greatest_safe :
    let a : Value := .float ⟨0x4340000000000000⟩
    let b : Value := .int 9007199254740992
    let ops : List StoreOp :=
      [.insert "shoe" 1 [("price", b)], .insert "shoe" 2 [("price", .int 9007199254740993)]]
    let ops' : List StoreOp := [.insert "hat" 7 [("price", a)], .createRangeIndex "hat" "price"]
    a.toRat? = some 9007199254740992 ∧ b.toRat? = some 9007199254740992 ∧
      (∃ ids, (build ops).lookup "shoe" "price" (.exact a) = .ok ids ∧ 1 ∈ ids) ∧
      ∃ ids ids', (build ops).lookup "shoe" "price" (.exact a) = .ok ids ∧
        (build ops').lookup "hat" "price" (.exact b) = .ok ids' ∧ (1 ∈ ids ↔ 7 ∈ ids') := by
  intro a b ops ops'
  have nearest : (⟨0x4340000000000000⟩ : Binary64) = Binary64.ofInt 9007199254740992 := by
    decide +kernel
  have equal : (9007199254740992 : Int) = Binary64.toRat ⟨0x4340000000000000⟩ := by
    rw [nearest, Binary64.intCast_eq_toRat]
    exact Binary64.scaled_ofInt (by decide)
  have ha : a.toRat? = some 9007199254740992 :=
    Value.toRat?_float.mpr ⟨by decide, equal.symm⟩
  have hb : b.toRat? = some 9007199254740992 := rfl
  have closed : ¬ a.LeftOpen b := fun h => absurd h.2 (by decide)
  have closed' : ¬ b.LeftOpen a := fun h => h.2 equal.symm
  have only : StoreOp.GiveOnly ops "shoe" "price" 1 b := by
    intro v
    simp [ops, StoreOp.contributions]
  have only' : StoreOp.GiveOnly ops' "hat" "price" 7 a := by
    intro v
    simp [ops', StoreOp.contributions]
  obtain ⟨found, symmetric⟩ := lookup_number ha hb closed
  obtain ⟨ids, hids, hmem⟩ := found ops "shoe" "price" 1 only
  have hna : a ≠ .float .negativeZero := by decide
  have hnb : b ≠ .float .negativeZero := by decide
  exact ⟨ha, hb, ⟨ids, hids, hmem.mpr ⟨rfl, (absurd · hnb), (absurd · hna)⟩⟩,
    symmetric closed' hna hnb ops ops' "shoe" "price" "hat" "price" 1 7 only only'⟩

/-- The two zeros are equal, but they do not find each other. -/
theorem lookup_number_misses_negative_zero :
    let ops : List StoreOp := [.insert "shoe" 1 [("price", .float .negativeZero)]]
    (Value.float .positiveZero).toRat? = some 0 ∧ (Value.float .negativeZero).toRat? = some 0 ∧
      StoreOp.GiveOnly ops "shoe" "price" 1 (.float .negativeZero) ∧
      ¬ ∃ ids, (build ops).lookup "shoe" "price" (.exact (.float .positiveZero)) = .ok ids ∧
        (1 ∈ ids ↔ (0 : ℚ) = 0) := by
  intro ops
  have only : StoreOp.GiveOnly ops "shoe" "price" 1 (.float .negativeZero) := by
    intro v
    simp [ops, StoreOp.contributions]
  have zero {x : Binary64} (hx : x.isFinite = true) (h : x.scaled = 0) :
      (Value.float x).toRat? = some 0 :=
    Value.toRat?_float.mpr ⟨hx, by rw [Binary64.toRat, h, Int.cast_zero, zero_div]⟩
  refine ⟨zero (by decide) (by decide), zero (by decide) (by decide), only, ?_⟩
  rintro ⟨ids, hids, hmem⟩
  obtain ⟨found, hfound, hfinds⟩ := lookup_exact_of_giveOnly only (.float .positiveZero)
  obtain rfl := Except.ok.inj (hids.symm.trans hfound)
  have hzeros := ValueMatch.finds_float_float.mp (hfinds.mp (hmem.mpr rfl))
  revert hzeros
  decide

end Store
end FacetQuery
