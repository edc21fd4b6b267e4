import FenceLint.Json.Token

/-!
Reading JSON text. The parser goes through the tokens once with a stack of the containers that are
still open, so depth is bounded by nothing but the text, and the whole text must be one value.
-/

set_option autoImplicit false

namespace FenceLint.Json

/-- A container that is still open, its contents so far in reverse. -/
inductive Frame
  | array (items : List Json)
  | object (members : List (Option String × Json))
  /-- An object that waits for the value of a key. -/
  | member (members : List (Option String × Json)) (key : Option String)

/-- What may come next. -/
inductive Expected
  | value | firstItem | firstKey | key | colon | separator
  /-- The text is complete with this value. -/
  | done (v : Json)

/-- Where the parser stands between two tokens. -/
structure Parsing where
  stack : List Frame
  expected : Expected

namespace Parsing

/-- Nothing read yet. -/
def start : Parsing := ⟨[], .value⟩

/-- A value is complete and goes into the innermost open container. -/
def deliver (v : Json) : List Frame → Option Parsing
  | [] => some ⟨[], .done v⟩
  | .array items :: below => some ⟨.array (v :: items) :: below, .separator⟩
  | .member members key :: below => some ⟨.object ((key, v) :: members) :: below, .separator⟩
  | .object _ :: _ => none

/-- A token where a value is expected. -/
def openValue (stack : List Frame) : Token → Option Parsing
  | .null => deliver .null stack
  | .bool b => deliver (.bool b) stack
  | .number n => deliver (.number n) stack
  | .string s => deliver (.string s) stack
  | .openArray => some ⟨.array [] :: stack, .firstItem⟩
  | .openObject => some ⟨.object [] :: stack, .firstKey⟩
  | _ => none

/-- One token. -/
def step (p : Parsing) (t : Token) : Option Parsing :=
  match p.expected, p.stack, t with
  | .value, stack, t => openValue stack t
  | .firstItem, .array _ :: below, .closeArray => deliver (.array []) below
  | .firstItem, stack, t => openValue stack t
  | .firstKey, .object _ :: below, .closeObject => deliver (.object []) below
  | .firstKey, .object members :: below, .string key =>
    some ⟨.member members key :: below, .colon⟩
  | .key, .object members :: below, .string key => some ⟨.member members key :: below, .colon⟩
  | .colon, stack, .colon => some ⟨stack, .value⟩
  | .separator, .array items :: below, .comma => some ⟨.array items :: below, .value⟩
  | .separator, .array items :: below, .closeArray => deliver (.array items.reverse) below
  | .separator, .object members :: below, .comma => some ⟨.object members :: below, .key⟩
  | .separator, .object members :: below, .closeObject => deliver (.object members.reverse) below
  | _, _, _ => none

/-- A run of tokens. -/
def steps (p : Parsing) : List Token → Option Parsing
  | [] => some p
  | t :: rest => (p.step t).bind fun q ↦ q.steps rest

/-- The value of a complete text. -/
def result? : Parsing → Option Json
  | ⟨_, .done v⟩ => some v
  | _ => none

end Parsing

/-- The value that a text is, if it is one. -/
def parse? (s : String) : Option Json := do
  let ts ← tokens s.toList
  let p ← Parsing.start.steps ts
  p.result?

end FenceLint.Json
