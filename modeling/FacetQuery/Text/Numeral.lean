/-!
# Decimal numerals

Numerals are sequences of the ten ASCII digits.  `numeralValue` reads a sequence of
digits by place value and `numeral` writes a natural number without leading zeros;
readers that bound the size of a number do so on the value, so leading zeros never
matter.
-/

namespace FacetQuery.Text

def digitValue (c : Char) : Nat :=
  c.toNat - '0'.toNat

/-- The place value of a sequence of digits; the empty sequence has the value `0`. -/
def numeralValue (digits : List Char) : Nat :=
  digits.foldl (fun value c => 10 * value + digitValue c) 0

def numeral (n : Nat) : List Char :=
  Nat.toDigits 10 n

/-- The digits of a natural number, filled with zeros on the left up to a width. -/
def paddedNumeral (width n : Nat) : List Char :=
  let digits := numeral n
  List.replicate (width - digits.length) '0' ++ digits

/-- A number in decimal with a minus sign in front of negative ones. -/
def signedNumeral (i : Int) : List Char :=
  if i < 0 then '-' :: numeral i.natAbs else numeral i.natAbs

/-- Reads a non-empty sequence of digits. -/
def readNumeral? (cs : List Char) : Option Nat :=
  if !cs.isEmpty && cs.all Char.isDigit then some (numeralValue cs) else none

/-- Reads a numeral whose value is below `2 ^ 64`, with one optional plus sign in front. -/
def readWord? (cs : List Char) : Option Nat :=
  let digits := match cs with
    | '+' :: rest => rest
    | _ => cs
  (readNumeral? digits).filter (· < UInt64.size)

def hexDigitValue? (c : Char) : Option Nat :=
  if c.isDigit then some (digitValue c)
  else if 'a' ≤ c && c ≤ 'f' then some (c.toNat - 'a'.toNat + 10)
  else if 'A' ≤ c && c ≤ 'F' then some (c.toNat - 'A'.toNat + 10)
  else none

/-- The hexadecimal digits of a natural number, in lower case and without leading zeros. -/
def hexNumeral (n : Nat) : List Char :=
  Nat.toDigits 16 n

end FacetQuery.Text
