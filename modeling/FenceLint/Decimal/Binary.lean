/-!
The exact value of a double. A finite double is a natural number times a power of two, and
arithmetic on that pair is exact, which is what rounding to decimal digits needs.
-/

set_option autoImplicit false

namespace FenceLint.Decimal

/-- The number `mantissa * 2 ^ power`. -/
structure Binary where
  mantissa : Nat
  power : Int
  deriving DecidableEq, Repr

/-- What the bits of a double stand for. -/
inductive Reading
  | finite (negative : Bool) (magnitude : Binary)
  | infinite
  | notANumber
  deriving DecidableEq, Repr

/-- Reads the bits of a double: one for the sign, eleven for the exponent, fifty-two for the
fraction. -/
def readBits (bits : UInt64) : Reading :=
  let n := bits.toNat
  let fraction : Nat := n % Nat.pow 2 52
  let exponent : Nat := n / Nat.pow 2 52 % 2048
  if exponent = 2047 then (if fraction = 0 then .infinite else .notANumber)
  else .finite (Nat.pow 2 63 ≤ n)
    (if exponent = 0 then ⟨fraction, -1074⟩ else ⟨fraction + Nat.pow 2 52, exponent - 1075⟩)

/-- The quotient `b * 2 ^ shift / 10 ^ e` as a numerator and a denominator. -/
def Binary.over (b : Nat) (shift e : Int) : Nat × Nat :=
  (b * Nat.pow 2 shift.toNat * Nat.pow 10 (-e).toNat,
    Nat.pow 2 (-shift).toNat * Nat.pow 10 e.toNat)

end FenceLint.Decimal
