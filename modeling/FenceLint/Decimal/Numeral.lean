import FenceLint.Decimal.Digits

/-!
Numbers below a bound as people type them: decimal digits, after a plus sign or none. Zeros in front
do no harm. The first character that goes wrong decides what is said of the rest.
-/

set_option autoImplicit false

namespace FenceLint.Decimal

/-- Why a text is no number below a bound. -/
inductive Numeral.Error
  | empty
  | notDigit
  | tooLarge
  deriving DecidableEq, Repr

namespace Numeral

/-- What is wrong with a text. -/
def Error.message : Error → String
  | empty => "cannot parse integer from empty string"
  | notDigit => "invalid digit found in string"
  | tooLarge => "number too large to fit in target type"

/-- The number `n` with one more digit behind it. -/
def extend (bound n : Nat) (c : Char) : Except Error Nat :=
  match digit? c with
  | none => .error .notDigit
  | some d => if 10 * n + d.val < bound then .ok (10 * n + d.val) else .error .tooLarge

/-- The number that characters stand for after `n`. -/
def readFrom (bound n : Nat) : List Char → Except Error Nat
  | [] => .ok n
  | c :: rest => do readFrom bound (← extend bound n c) rest

/-- The number that a text stands for. -/
def read (bound : Nat) (text : String) : Except Error Nat :=
  match text.toList with
  | [] => .error .empty
  | ['+'] => .error .notDigit
  | '+' :: rest => readFrom bound 0 rest
  | cs => readFrom bound 0 cs

end Numeral

end FenceLint.Decimal
