/-!
# Rounding a quotient to a whole number

Doubles, durations and the shortest decimals all round the same way: to the nearest
whole number, and from the middle between two to the even one.
-/

namespace FacetQuery

/-- The whole number nearest to `num / den`; from the middle, the even one. -/
def roundHalfEven (num den : Nat) : Nat :=
  let whole := num / den
  let rest := num % den
  if 2 * rest < den then whole
  else if den < 2 * rest then whole + 1
  else if whole % 2 = 0 then whole
  else whole + 1

/-- The result is the quotient rounded down, or one more. -/
theorem roundHalfEven_eq_or (num den : Nat) :
    roundHalfEven num den = num / den ∨ roundHalfEven num den = num / den + 1 := by
  simp only [roundHalfEven]
  split
  · exact .inl rfl
  · split
    · exact .inr rfl
    · split
      · exact .inl rfl
      · exact .inr rfl

end FacetQuery
