import FenceLint.Decimal.Binary

/-!
The shortest decimal that reads back as a given double. The reals that round to a double form an
interval around it; going from coarse decimal grids to finer ones, the first grid with a point in
the interval has the fewest digits, and only the two neighbours of the double on each grid need
to be looked at.
-/

set_option autoImplicit false

namespace FenceLint.Decimal

/-- The number `digits * 10 ^ power`. -/
structure Scientific where
  digits : Nat
  power : Int
  deriving DecidableEq, Repr

/-- The point of the grid of multiples of `10 ^ e` that reads back as `b`, if one does: the nearer
neighbour of `b`, and the even one of two that are equally near. Lengths are counted in quarters of
the gap above `b`; the gap below is half as wide where the mantissa is the least of its binade. -/
def pointOn (b : Binary) (e : Int) : Option Scientific :=
  let scaled (quarters : Nat) : Nat := (Binary.over quarters (b.power - 2) e).1
  let unit := (Binary.over 1 (b.power - 2) e).2
  let exact := scaled (4 * b.mantissa)
  let low := scaled (4 * b.mantissa - if b.mantissa = Nat.pow 2 52 && -1074 < b.power then 1 else 2)
  let high := scaled (4 * b.mantissa + 2)
  let readsBack (d : Nat) : Bool :=
    if b.mantissa % 2 = 0 then low ≤ d * unit && d * unit ≤ high
    else low < d * unit && d * unit < high
  let below := exact / unit
  let above := below + 1
  let toBelow := exact - below * unit
  let toAbove := above * unit - exact
  match readsBack below, readsBack above with
  | true, true =>
    if toBelow < toAbove || (toBelow = toAbove && below % 2 = 0) then some ⟨below, e⟩
    else some ⟨above, e⟩
  | true, false => some ⟨below, e⟩
  | false, true => some ⟨above, e⟩
  | false, false => none

/-- The first hit on `count` grids, each ten times finer than the one before. -/
def firstPoint (b : Binary) : Nat → Int → Option Scientific
  | 0, _ => none
  | count + 1, e => (pointOn b e).orElse fun _ ↦ firstPoint b count (e - 1)

/-- A power of ten above `b`, at most three places too high. -/
def ceilingPower (b : Binary) : Int :=
  (Int.ofNat b.mantissa.log2 + b.power + 1) * 30103 / 100000 + 2

/-- The shortest decimal that reads back as `b`. Seventeen digits always do, so the twenty-one grids
that are searched are enough. -/
def shortest (b : Binary) : Scientific :=
  if b.mantissa = 0 then ⟨0, 0⟩
  else (firstPoint b 21 (ceilingPower b)).getD ⟨b.mantissa, 0⟩

end FenceLint.Decimal
