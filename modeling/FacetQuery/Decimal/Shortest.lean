import FacetQuery.Binary64

/-!
# The shortest decimal of a double

Every real number near a double rounds to that double; these numbers form an interval
that ends in the middle between the double and its two neighbours, and the ends belong
to it when the magnitude is even.  The shortest decimal is the decimal in this interval
with the fewest digits and, of these, the one nearest to the double.

The search goes through the grids of the multiples of `10 ^ k`, from coarse to fine.
If a grid has a point in the interval, one of the two grid points around the double is
in it, so only these two are tested; the first grid with a hit is the answer.  On the
grid of the multiples of `10 ^ -1074` the double itself is a point, so there is always
a hit.
-/

namespace FacetQuery

structure Decimal where
  coefficient : Nat
  exponent : Int
deriving DecidableEq

inductive Tie where
  /-- The larger of the two decimals. -/
  | up
  /-- The decimal with the even last digit. -/
  | even
deriving DecidableEq

namespace Decimal

/-- The real numbers that round to a positive finite magnitude, in multiples of `2 ^ -1075`:
twice the value, and the two ends of the interval, which belong to it if it is closed. -/
structure RoundingInterval where
  lower : Nat
  center : Nat
  upper : Nat
  closed : Bool

def RoundingInterval.around (magnitude : Nat) : RoundingInterval :=
  let value := Binary64.scaledOfMagnitude magnitude
  { lower := Binary64.scaledOfMagnitude (magnitude - 1) + value
    center := 2 * value
    upper := value + Binary64.scaledOfMagnitude (magnitude + 1)
    closed := magnitude % 2 == 0 }

/-- Whether `coefficient * unit` lies in the interval whose ends are multiplied by `factor`. -/
def RoundingInterval.contains (interval : RoundingInterval) (factor unit coefficient : Nat) :
    Bool :=
  let point := coefficient * unit
  if interval.closed then
    interval.lower * factor ≤ point && point ≤ interval.upper * factor
  else
    interval.lower * factor < point && point < interval.upper * factor

/-- The point of the grid of the multiples of `10 ^ exponent` that is in the interval and
nearest to its center, if there is one. -/
def RoundingInterval.nearestOnGrid? (interval : RoundingInterval) (tie : Tie) (exponent : Int) :
    Option Nat :=
  let factor := Nat.pow 10 (-exponent).toNat
  let unit := Nat.pow 2 1075 * Nat.pow 10 exponent.toNat
  let below := interval.center * factor / unit
  let above := below + 1
  let distance := 2 * (interval.center * factor)
  match interval.contains factor unit below, interval.contains factor unit above with
  | false, false => none
  | true, false => some below
  | false, true => some above
  | true, true =>
    match compare distance ((below + above) * unit) with
    | .lt => some below
    | .gt => some above
    | .eq => if tie = .even ∧ below % 2 = 0 then some below else some above

/-- The first hit among the grids of the multiples of `10 ^ exponent`, `10 ^ (exponent - 1)`,
and so on. -/
def RoundingInterval.search (interval : RoundingInterval) (tie : Tie) : Nat → Int → Decimal
  | 0, exponent => ⟨0, exponent⟩
  | grids + 1, exponent =>
    match interval.nearestOnGrid? tie exponent with
    | some coefficient => ⟨coefficient, exponent⟩
    | none => interval.search tie grids (exponent - 1)

/-- The shortest decimal of a finite magnitude.  The search begins with the multiples of a power
of ten above the number and ends with the multiples of `10 ^ -1074`, of which the number itself is
one. -/
def shortest (tie : Tie) (magnitude : Nat) : Decimal :=
  if magnitude = 0 then ⟨0, 0⟩
  else
    let whole := Binary64.scaledOfMagnitude magnitude / Binary64.scaledOne
    let places := (Nat.toDigits 10 whole).length
    (RoundingInterval.around magnitude).search tie (places + 1075) places

end Decimal
end FacetQuery
