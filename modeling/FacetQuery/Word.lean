/-!
# Integers of 64 bits

Which integers there are as 64-bit words, signed and unsigned.
-/

namespace FacetQuery

/-- The signed word that an integer is, if it is one. -/
def int64? (i : Int) : Option Int64 :=
  if Int64.minValue.toInt ≤ i ∧ i ≤ Int64.maxValue.toInt then some (Int64.ofInt i) else none

/-- The unsigned word that an integer is, if it is one. -/
def uint64? (i : Int) : Option UInt64 :=
  if 0 ≤ i ∧ i < UInt64.size then some (UInt64.ofNat i.toNat) else none

/-- The only signed word of an integer is the one with this value. -/
theorem int64?_eq_some_iff {i : Int} {w : Int64} : int64? i = some w ↔ w.toInt = i := by
  simp only [int64?, Int64.toInt_minValue, Int64.toInt_maxValue]
  constructor
  · intro h
    split at h
    · rw [← Option.some.inj h]
      exact Int64.toInt_ofInt_of_le (by omega) (by omega)
    · cases h
  · intro h
    have hlow := Int64.le_toInt w
    have hhigh := Int64.toInt_lt w
    rw [if_pos (by omega), ← h, Int64.ofInt_toInt]

end FacetQuery
