import FenceLint.Json.Value

/-!
JSON text. `compact` writes no white space; `pretty` puts every member and item on a line of its
own, two spaces deeper than its container, and keeps empty containers closed.
-/

set_option autoImplicit false

namespace FenceLint.Json

/-- A hexadecimal digit in lower case. -/
def hexChar (n : Nat) : Char :=
  if n < 10 then Char.ofNat (48 + n) else Char.ofNat (87 + n)

/-- A character inside a string: quotes, backslashes and control characters are escaped, all else
stands for itself. -/
def escapeChar (c : Char) : List Char :=
  if c = '"' then ['\\', '"']
  else if c = '\\' then ['\\', '\\']
  else if c = '\x08' then ['\\', 'b']
  else if c = '\t' then ['\\', 't']
  else if c = '\n' then ['\\', 'n']
  else if c = '\x0c' then ['\\', 'f']
  else if c = '\r' then ['\\', 'r']
  else if c.toNat < 32 then
    ['\\', 'u', '0', '0', hexChar (c.toNat / 16), hexChar (c.toNat % 16)]
  else [c]

/-- A string in quotes. -/
def quote (cs : List Char) : List Char :=
  '"' :: cs.flatMap escapeChar ++ ['"']

/-- A string that stands for no text is written as a lone half of a surrogate pair. -/
def quoted : Option String → List Char
  | some s => quote s.toList
  | none => ['"', '\\', 'u', 'd', '8', '0', '0', '"']

/-- An exponent as it was written. -/
def Exponent.chars (e : Exponent) : List Char :=
  (if e.capital then 'E' else 'e') ::
    (match e.sign with | none => [] | some true => ['-'] | some false => ['+']) ++
    (e.first :: e.rest).map Decimal.digitChar

/-- A number as it was written. -/
def Number.chars (n : Number) : List Char :=
  (if n.negative then ['-'] else []) ++ Decimal.chars n.whole ++
    (if n.fraction.isEmpty then [] else '.' :: n.fraction.map Decimal.digitChar) ++
    (match n.exponent with | none => [] | some e => e.chars)

mutual

/-- A value without white space. -/
def compactChars : Json → List Char
  | .null => ['n', 'u', 'l', 'l']
  | .bool true => ['t', 'r', 'u', 'e']
  | .bool false => ['f', 'a', 'l', 's', 'e']
  | .number n => n.chars
  | .string s => quoted s
  | .array items => '[' :: compactItems items ++ [']']
  | .object members => '{' :: compactMembers members ++ ['}']

/-- Items with commas between them. -/
def compactItems : List Json → List Char
  | [] => []
  | [v] => compactChars v
  | v :: w :: rest => compactChars v ++ ',' :: compactItems (w :: rest)

/-- Members with commas between them. -/
def compactMembers : List (Option String × Json) → List Char
  | [] => []
  | [(k, v)] => quoted k ++ ':' :: compactChars v
  | (k, v) :: m :: rest => quoted k ++ ':' :: compactChars v ++ ',' :: compactMembers (m :: rest)

end

/-- A new line at a depth. -/
def freshLine (depth : Nat) : List Char := '\n' :: List.replicate (2 * depth) ' '

mutual

/-- A value laid out at a depth. -/
def prettyChars (depth : Nat) : Json → List Char
  | .null => ['n', 'u', 'l', 'l']
  | .bool true => ['t', 'r', 'u', 'e']
  | .bool false => ['f', 'a', 'l', 's', 'e']
  | .number n => n.chars
  | .string s => quoted s
  | .array [] => ['[', ']']
  | .array (v :: rest) => '[' :: prettyItems (depth + 1) (v :: rest) ++ freshLine depth ++ [']']
  | .object [] => ['{', '}']
  | .object (m :: rest) =>
    '{' :: prettyMembers (depth + 1) (m :: rest) ++ freshLine depth ++ ['}']

/-- Items one below the other. -/
def prettyItems (depth : Nat) : List Json → List Char
  | [] => []
  | [v] => freshLine depth ++ prettyChars depth v
  | v :: w :: rest => freshLine depth ++ prettyChars depth v ++ ',' :: prettyItems depth (w :: rest)

/-- Members one below the other. -/
def prettyMembers (depth : Nat) : List (Option String × Json) → List Char
  | [] => []
  | [(k, v)] => freshLine depth ++ quoted k ++ ':' :: ' ' :: prettyChars depth v
  | (k, v) :: m :: rest =>
    freshLine depth ++ quoted k ++ ':' :: ' ' :: prettyChars depth v ++
      ',' :: prettyMembers depth (m :: rest)

end

/-- A value on one line without white space. -/
def compact (v : Json) : String := String.ofList (compactChars v)

/-- A value on several lines. -/
def pretty (v : Json) : String := String.ofList (prettyChars 0 v)

end FenceLint.Json
