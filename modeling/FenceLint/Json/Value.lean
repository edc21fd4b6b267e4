import FenceLint.Decimal.Digits
import FenceLint.Decimal.Shortest

/-!
JSON values. Objects are lists of members in the order they were written, repeated keys included,
and numbers keep the digits they were written with, so a value says all about its text but the
white space and the spelling of characters.
-/

set_option autoImplicit false

namespace FenceLint

/-- The exponent of a number, with at least one digit. -/
structure Json.Exponent where
  capital : Bool
  /-- The sign as written: `some true` for a minus. -/
  sign : Option Bool
  first : Fin 10
  rest : List (Fin 10)
  deriving DecidableEq, Repr

/-- A number as it is written. -/
structure Json.Number where
  negative : Bool
  whole : Nat
  /-- The digits after the point; without any there is no point. -/
  fraction : List (Fin 10)
  exponent : Option Json.Exponent
  deriving DecidableEq, Repr

/-- A JSON value. A string or a key is `none` when its escapes stand for no text, because a half of
a surrogate pair is missing. -/
inductive Json
  | null
  | bool (b : Bool)
  | number (n : Json.Number)
  | string (text? : Option String)
  | array (items : List Json)
  | object (members : List (Option String × Json))

namespace Json

/-- A string value. -/
def text (s : String) : Json := .string (some s)

/-- A natural number. -/
def nat (n : Nat) : Json := .number ⟨false, n, [], none⟩

/-- A string, or null when there is none. -/
def textOrNull : Option String → Json
  | some s => text s
  | none => null

/-- An object with these members. -/
def record (members : List (String × Json)) : Json :=
  .object (members.map fun m ↦ (some m.1, m.2))

/-- A decimal as a number: positional when its leading digit stands for `10 ^ x` with
`-5 ≤ x ≤ 15`, and then with a digit after the point; else with one digit before the point and a
signed exponent. -/
def Number.ofScientific (negative : Bool) (s : Decimal.Scientific) : Number :=
  let ds := Decimal.digits s.digits
  let x : Int := s.power + ds.length - 1
  if s.digits = 0 then ⟨negative, 0, [Decimal.zeroDigit], none⟩
  else if x < -5 || 15 < x then
    let e := Decimal.digits x.natAbs
    ⟨negative, Decimal.value (ds.take 1), ds.drop 1,
      some ⟨false, some (decide (x < 0)), e.headD Decimal.zeroDigit, e.drop 1⟩⟩
  else if x < 0 then ⟨negative, 0, List.replicate (x.natAbs - 1) Decimal.zeroDigit ++ ds, none⟩
  else
    let all := ds ++ List.replicate s.power.toNat Decimal.zeroDigit
    let fraction := all.drop (x.toNat + 1)
    ⟨negative, Decimal.value (all.take (x.toNat + 1)),
      if fraction.isEmpty then [Decimal.zeroDigit] else fraction, none⟩

/-- A double in the fewest digits that read back; what is not finite has no number. -/
def float (x : Float) : Json :=
  match Decimal.readBits x.toBits with
  | .finite negative b => .number (Number.ofScientific negative (Decimal.shortest b))
  | _ => .null

end Json

end FenceLint
