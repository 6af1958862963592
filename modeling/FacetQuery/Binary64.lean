import FacetQuery.Rounding

/-!
# Doubles as bit patterns

A `Binary64` is the 64-bit interchange pattern of an IEEE 754 double: one sign bit,
eleven exponent bits and fifty-two fraction bits.  Two of them are equal when their
patterns are, so `0.0` and `-0.0` are different and every NaN equals itself; this is
the equality under which a double can be a key.

## The two views

* **Magnitude.**  Without its sign bit the pattern is a natural number, and the order
  of these numbers is the order of the absolute values.  Every comparison is one
  comparison of integers (`orderKey`, `totalKey`).
* **Multiples of the smallest double.**  Every finite double is a whole multiple of
  `2 ^ -1074`; `scaledMagnitude` says which one.  Arithmetic is exact on these
  multiples and is rounded once, by `ofScaledRatio`.

Consecutive magnitudes are consecutive doubles, so rounding a ratio means: choose the
binary exponent `e` that leaves 53 significant bits, round the quotient `q` to a whole
number, and take the magnitude `e * 2 ^ 52 + q`.  The sum covers the subnormal numbers
(`e = 0`), the carry of `q` into the next exponent, and, cut off at
`infinityMagnitude`, the overflow.
-/

namespace FacetQuery

/-- An IEEE 754 double, given by its bit pattern: sign, exponent and fraction, from the highest
bit to the lowest.  Equality is that of the patterns, under which a double can be a key; how
numbers compare is said by `compare?`. -/
structure Binary64 where
  bits : UInt64
deriving DecidableEq, Hashable, Inhabited

namespace Binary64

/-- The number of magnitudes with the same binary exponent. -/
def binade : Nat :=
  Nat.pow 2 52

def signBit : Nat :=
  Nat.pow 2 63

/-- The number one, as a multiple of `2 ^ -1074`. -/
def scaledOne : Nat :=
  Nat.pow 2 1074

/-- The magnitude of infinity; larger magnitudes are NaNs. -/
def infinityMagnitude : Nat :=
  2047 * binade

def isNegative (x : Binary64) : Bool :=
  signBit ≤ x.bits.toNat

def magnitude (x : Binary64) : Nat :=
  x.bits.toNat % signBit

def ofMagnitude (negative : Bool) (magnitude : Nat) : Binary64 :=
  ⟨UInt64.ofNat (if negative then signBit + magnitude else magnitude)⟩

def isNaN (x : Binary64) : Bool :=
  infinityMagnitude < x.magnitude

def isFinite (x : Binary64) : Bool :=
  x.magnitude < infinityMagnitude

def neg (x : Binary64) : Binary64 :=
  ofMagnitude (!x.isNegative) x.magnitude

/-! ### Order -/

/-- The position of a number among all numbers, by which numbers are compared.  Both zeros have
the position `0`, and the position of a NaN means nothing. -/
def orderKey (x : Binary64) : Int :=
  if x.isNegative then -(x.magnitude : Int) else x.magnitude

/-- The order of two numbers; a NaN is not comparable with anything. -/
def compare? (x y : Binary64) : Option Ordering :=
  if x.isNaN || y.isNaN then none else some (compare x.orderKey y.orderKey)

/-- The position of a pattern in the total order of all patterns, in which `-0.0` comes
just before `0.0` and the NaNs lie outside the infinities. -/
def totalKey (x : Binary64) : Int :=
  if x.isNegative then -1 - (x.magnitude : Int) else x.magnitude

/-! ### Exact value and rounding -/

/-- The absolute value that a magnitude stands for, as a multiple of `2 ^ -1074`.  The subnormal
magnitudes stand for themselves; the others have a leading bit that is not written, and one more
place for each further exponent. -/
def scaledOfMagnitude (magnitude : Nat) : Nat :=
  if magnitude < binade then magnitude
  else (binade + magnitude % binade) * Nat.pow 2 (magnitude / binade - 1)

def scaledMagnitude (x : Binary64) : Nat :=
  scaledOfMagnitude x.magnitude

/-- The value of a finite double, as a multiple of `2 ^ -1074`. -/
def scaled (x : Binary64) : Int :=
  if x.isNegative then -(x.scaledMagnitude : Int) else x.scaledMagnitude

/-- The magnitude nearest to `num / den` multiples of `2 ^ -1074`; from the middle
between two, the even one. -/
def nearestMagnitude (num den : Nat) : Nat :=
  let exponent := (num / den).log2 + 1 - 53
  min (exponent * binade + roundHalfEven num (den * Nat.pow 2 exponent)) infinityMagnitude

/-- The double nearest to `num / den` multiples of `2 ^ -1074`, with the given sign.  All
arithmetic is exact up to here and is rounded here, once. -/
def ofScaledRatio (negative : Bool) (num den : Nat) : Binary64 :=
  ofMagnitude negative (nearestMagnitude num den)

def ofRatio (negative : Bool) (num den : Nat) : Binary64 :=
  ofScaledRatio negative (num * scaledOne) den

def ofNat (n : Nat) : Binary64 :=
  ofRatio false n 1

def ofInt (i : Int) : Binary64 :=
  ofRatio (i < 0) i.natAbs 1

/-- The double nearest to `coefficient * 10 ^ exponent`, with the given sign. -/
def ofDecimal (negative : Bool) (coefficient : Nat) (exponent : Int) : Binary64 :=
  match exponent with
  | .ofNat k => ofRatio negative (coefficient * Nat.pow 10 k) 1
  | .negSucc k => ofRatio negative coefficient (Nat.pow 10 (k + 1))

/-- The double nearest to the sum of two non-negative finite doubles. -/
def addMagnitudes (x y : Binary64) : Binary64 :=
  ofScaledRatio false (x.scaledMagnitude + y.scaledMagnitude) 1

def mul (x y : Binary64) : Binary64 :=
  ofScaledRatio (x.isNegative != y.isNegative) (x.scaledMagnitude * y.scaledMagnitude) scaledOne

/-- The double nearest to the quotient of a finite double and a finite double other than zero. -/
def div (x y : Binary64) : Binary64 :=
  ofRatio (x.isNegative != y.isNegative) x.scaledMagnitude y.scaledMagnitude

/-- The integer that a finite double without fractional part stands for. -/
def toInt? (x : Binary64) : Option Int :=
  if x.isFinite && x.scaledMagnitude % scaledOne == 0 then
    let whole : Int := (x.scaledMagnitude / scaledOne : Nat)
    some (if x.isNegative then -whole else whole)
  else none

end Binary64
end FacetQuery
