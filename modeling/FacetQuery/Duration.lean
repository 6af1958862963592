import FacetQuery.Binary64
import FacetQuery.Text.Numeral

/-!
# Spans of time

A `Duration` is a whole number of nanoseconds.  It is read from a number of seconds and
given back as one; both directions round to the nearest representable value.
-/

namespace FacetQuery

structure Duration where
  nanos : Nat
deriving DecidableEq

inductive DurationError where
  | negative
  | tooLarge
deriving DecidableEq

def DurationError.message : DurationError → String
  | .negative => "cannot convert float seconds to Duration: value is negative"
  | .tooLarge => "cannot convert float seconds to Duration: value is either too big or NaN"

namespace Duration

def nanosPerSecond : Nat :=
  1000000000

def ofSeconds (seconds : Nat) : Duration :=
  ⟨seconds * nanosPerSecond⟩

/-- The span nearest to a number of seconds, which must not be negative and must be below
`2 ^ 64`.  The zero with a minus sign is not negative. -/
def ofBinary64 (seconds : Binary64) : Except DurationError Duration :=
  if seconds.isNaN then .error .tooLarge
  else if seconds.orderKey < 0 then .error .negative
  else if seconds.isFinite && seconds.scaledMagnitude < UInt64.size * Binary64.scaledOne then
    .ok ⟨roundHalfEven (seconds.scaledMagnitude * nanosPerSecond) Binary64.scaledOne⟩
  else .error .tooLarge

/-- The span as a number of seconds: the whole seconds plus the nanoseconds divided by
`10 ^ 9`, each step rounded to a double. -/
def toBinary64 (d : Duration) : Binary64 :=
  let seconds := Binary64.ofNat (d.nanos / nanosPerSecond)
  let fraction := (Binary64.ofNat (d.nanos % nanosPerSecond)).div (Binary64.ofNat nanosPerSecond)
  seconds.addMagnitudes fraction

/-- A number of units with its decimal fraction, of which `scale` makes one unit.
Zeros at the end of the fraction are not written. -/
def unitText (nanos scale places : Nat) (unit : String) : String :=
  let fraction := (Text.paddedNumeral places (nanos % scale)).reverse.dropWhile (· == '0')
  let point := if fraction.isEmpty then [] else '.' :: fraction.reverse
  String.ofList (Text.numeral (nanos / scale) ++ point) ++ unit

/-- The span in the largest of the units second, millisecond, microsecond and nanosecond
of which it has at least one. -/
def toText (d : Duration) : String :=
  if nanosPerSecond ≤ d.nanos then unitText d.nanos nanosPerSecond 9 "s"
  else if 1000000 ≤ d.nanos then unitText d.nanos 1000000 6 "ms"
  else if 1000 ≤ d.nanos then unitText d.nanos 1000 3 "µs"
  else unitText d.nanos 1 0 "ns"

instance : ToString Duration := ⟨toText⟩

end Duration
end FacetQuery
