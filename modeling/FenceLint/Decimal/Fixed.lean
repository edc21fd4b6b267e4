import FenceLint.Decimal.Binary
import FenceLint.Decimal.Digits

/-!
A double to one decimal place, rounded from its exact value with ties to the even neighbour.
-/

set_option autoImplicit false

namespace FenceLint.Decimal

/-- The quotient to the nearest natural number, a half going to the even neighbour. -/
def roundDiv (numerator denominator : Nat) : Nat :=
  let down := numerator / denominator
  let twice := 2 * (numerator % denominator)
  if twice < denominator || (twice = denominator && down % 2 = 0) then down else down + 1

/-- The number of tenths nearest to `b`. -/
def tenths (b : Binary) : Nat :=
  let q := Binary.over b.mantissa b.power (-1)
  roundDiv q.1 q.2

/-- A double with one digit after the point. -/
def onePlace (x : Float) : String :=
  match readBits x.toBits with
  | .finite negative b =>
    let n := tenths b
    String.ofList ((if negative then ['-'] else []) ++ chars (n / 10) ++ '.' :: chars (n % 10))
  | .infinite => if x < 0 then "-inf" else "inf"
  | .notANumber => "NaN"

end FenceLint.Decimal
