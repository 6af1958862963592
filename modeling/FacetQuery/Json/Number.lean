import FacetQuery.Json.Token
import FacetQuery.Json.Basic

/-!
# The value of a JSON number

A number without point and power of ten that fits into 64 bits, signed or unsigned, is a
whole number; every other number is a double, and so is `-0`.

A double is read in two steps.  Its digits are collected into a significand of 64 bits:
once a digit no longer fits, the digits behind it are dropped and only their places
count.  The significand, as a double, is then multiplied or divided by a power of ten.
Each step rounds.  A power of ten that is too large is an error, one that is too small
gives zero.
-/

namespace FacetQuery.JsonText

/-- The digits of a number that have been taken: those that fit, and the power of ten of the
last of them. -/
structure Significand where
  value : Nat
  exponent : Int

/-- Whether one more digit fits into 64 bits. -/
def Significand.fits (s : Significand) (c : Char) : Bool :=
  s.value * 10 + Text.digitValue c < UInt64.size

/-- Takes the digits before the point; a digit that does not fit, and every digit behind it,
counts only as a place. -/
def Significand.takeWhole (s : Significand) : List Char → Significand
  | [] => s
  | c :: rest =>
    if s.fits c then takeWhole ⟨s.value * 10 + Text.digitValue c, s.exponent⟩ rest
    else ⟨s.value, s.exponent + (rest.length + 1)⟩

/-- Takes the digits behind the point up to the first one that does not fit. -/
def Significand.takeFraction (s : Significand) : List Char → Significand
  | [] => s
  | c :: rest =>
    if s.fits c then takeFraction ⟨s.value * 10 + Text.digitValue c, s.exponent - 1⟩ rest
    else s

/-- The largest power of ten, as an exponent, by which a significand is scaled at once: the
largest one that is a finite double. -/
def maxScale : Nat :=
  308

/-- A double times a power of ten.  A result that is not finite is an error, and so is a larger
power of ten, unless there is nothing to scale. -/
def scaleUp (x : Binary64) (exponent : Nat) : Except JsonFault Binary64 :=
  if exponent ≤ maxScale then
    let y := x.mul (Binary64.ofNat (Nat.pow 10 exponent))
    if y.isFinite then .ok y else .error .malformed
  else if x.magnitude = 0 then .ok x
  else .error .malformed

/-- A double divided by a power of ten, in steps of `10 ^ 308`, each of which rounds. -/
def scaleDown (x : Binary64) (exponent : Nat) : Binary64 :=
  if exponent ≤ maxScale then x.div (Binary64.ofNat (Nat.pow 10 exponent))
  else if x.magnitude = 0 then x
  else scaleDown (x.div (Binary64.ofNat (Nat.pow 10 maxScale))) (exponent - maxScale)
termination_by exponent
decreasing_by simp only [maxScale] at *; omega

def Significand.toBinary64 (s : Significand) : Except JsonFault Binary64 :=
  match s.exponent with
  | .ofNat k => scaleUp (Binary64.ofNat s.value) k
  | .negSucc k => .ok (scaleDown (Binary64.ofNat s.value) (k + 1))

/-- The largest power of ten that is taken at its word, as an exponent.  Beyond it a number is
zero or too large, whatever its digits are. -/
def maxExponent : Nat :=
  Nat.pow 2 31 - 1

def NumberText.absoluteValue (n : NumberText) : Except JsonFault Binary64 :=
  let s := (Significand.takeWhole ⟨0, 0⟩ n.whole).takeFraction (n.fraction.getD [])
  match n.exponent with
  | none => s.toBinary64
  | some (negative, digits) =>
    let exponent := Text.numeralValue digits
    if exponent ≤ maxExponent then
      let shift : Int := if negative then -(exponent : Int) else exponent
      Significand.toBinary64 ⟨s.value, s.exponent + shift⟩
    else if negative || s.value == 0 then .ok (Binary64.ofNat 0)
    else .error .malformed

/-- The whole number that a number is, if it is one.  The zero with a minus sign is none, since
only a double can keep the sign. -/
def NumberText.whole? (n : NumberText) : Option Int :=
  if n.fraction.isSome || n.exponent.isSome then none
  else
    let value := Text.numeralValue n.whole
    if n.negative then
      if 0 < value ∧ value ≤ Nat.pow 2 63 then some (-(value : Int)) else none
    else if value < UInt64.size then some value
    else none

def NumberText.toJson (n : NumberText) : Except JsonFault Json :=
  match n.whole? with
  | some i => .ok (.int i)
  | none => n.absoluteValue.map fun x => .float (if n.negative then x.neg else x)

end FacetQuery.JsonText
