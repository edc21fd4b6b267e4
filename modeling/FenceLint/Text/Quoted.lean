import FenceLint.Text.Shapeless

/-!
Text in double quotes for people to read. Quotes, backslashes and the usual control characters take
a backslash, other characters that show nothing are written by number, and all else stands for
itself.
-/

set_option autoImplicit false

namespace FenceLint.Text

/-- A number in hexadecimal, in lower case and without leading zeros. -/
def hexChars (n : Nat) : List Char := Nat.toDigits 16 n

/-- A character inside quotes. -/
def quotedChar (c : Char) : List Char :=
  if c = '\x00' then ['\\', '0']
  else if c = '\t' then ['\\', 't']
  else if c = '\n' then ['\\', 'n']
  else if c = '\r' then ['\\', 'r']
  else if c = '"' then ['\\', '"']
  else if c = '\\' then ['\\', '\\']
  else if isShapeless c then ['\\', 'u', '{'] ++ hexChars c.toNat ++ ['}']
  else [c]

/-- A text in quotes. -/
def quoted (s : String) : String :=
  String.ofList ('"' :: s.toList.flatMap quotedChar ++ ['"'])

end FenceLint.Text
