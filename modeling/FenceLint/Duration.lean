import FenceLint.Decimal.Digits

/-!
Lengths of time. A duration is a count of nanoseconds; `millis` is its length in whole
milliseconds and `toMillis` the double that reports carry.
-/

set_option autoImplicit false

namespace FenceLint

/-- A length of time. -/
structure Duration where
  nanos : Nat
  deriving DecidableEq, Repr

namespace Duration

/-- No time at all. -/
def zero : Duration := ⟨0⟩

/-- So many whole seconds and nanoseconds. -/
def ofParts (secs nanos : Nat) : Duration := ⟨secs * 1000000000 + nanos⟩

/-- So many milliseconds. -/
def ofMillis (n : Nat) : Duration := ⟨n * 1000000⟩

/-- Whole seconds. -/
def secs (d : Duration) : Nat := d.nanos / 1000000000

/-- Nanoseconds beyond the whole seconds. -/
def subsec (d : Duration) : Nat := d.nanos % 1000000000

/-- Whole milliseconds. -/
def millis (d : Duration) : Nat := d.nanos / 1000000

/-- Whole microseconds. -/
def micros (d : Duration) : Nat := d.nanos / 1000

/-- Milliseconds as a double: seconds and their fraction are converted apart, added, and scaled. -/
def toMillis (d : Duration) : Float :=
  ((UInt64.ofNat d.secs).toFloat + (UInt64.ofNat d.subsec).toFloat / 1e9) * 1000.0

/-- A whole part and the digits of a fraction, whose zeros at the end are dropped together with a
point that nothing follows. -/
def fractional (whole fraction width : Nat) : List Char :=
  let kept := ((Decimal.padded width fraction).reverse.dropWhile (· == '0')).reverse
  Decimal.chars whole ++ (if kept.isEmpty then [] else '.' :: kept)

/-- A duration in the largest unit of which it holds at least one. -/
def describe (d : Duration) : String :=
  let n := d.nanos
  if 1000000000 ≤ n then String.ofList (fractional d.secs d.subsec 9) ++ "s"
  else if 1000000 ≤ n then String.ofList (fractional (n / 1000000) (n % 1000000) 6) ++ "ms"
  else if 1000 ≤ n then String.ofList (fractional (n / 1000) (n % 1000) 3) ++ "µs"
  else String.ofList (Decimal.chars n) ++ "ns"

end Duration

end FenceLint
