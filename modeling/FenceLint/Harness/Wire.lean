import FenceLint.Json.Parser
import FenceLint.Json.Printer

/-!
The messages between the program and a harness process, one JSON value to a line. A message is an
object, or an array of its fields in order; unknown keys of an object are passed over, and a known
key that comes twice spoils it.
-/

set_option autoImplicit false

namespace FenceLint.Harness

/-- The values of the named fields in order, `none` where an object lacks one. An array must hold at
least `least` of the fields and nothing beyond them. -/
def fields? (names : List String) (least : Nat) : Json → Option (List (Option Json))
  | .object members =>
    if members.all (·.1.isSome) && names.all fun n ↦ members.countP (·.1 == some n) ≤ 1 then
      some (names.map fun n ↦ members.lookup (some n))
    else none
  | .array items =>
    if least ≤ items.length && items.length ≤ names.length then
      some (items.map some ++ List.replicate (names.length - items.length) none)
    else none
  | _ => none

/-- A truth value. -/
def bool? : Json → Option Bool
  | .bool b => some b
  | _ => none

/-- A text or null; a missing field is like null. -/
def text? : Option Json → Option (Option String)
  | none => some none
  | some .null => some none
  | some (.string (some s)) => some (some s)
  | _ => none

/-- A number is an identifier when it is written as a natural number below `2 ^ 64`. -/
def identifier? : Json → Option Nat
  | .number ⟨false, n, [], none⟩ => if n < Decimal.wordBound then some n else none
  | _ => none

/-- What a process says about its start. -/
structure Handshake where
  ready : Bool
  version? : Option String
  fatal? : Option String
  deriving DecidableEq, Repr

namespace Handshake

/-- A JSON value as a handshake. -/
def ofJson? (v : Json) : Option Handshake := do
  match ← fields? ["ready", "version", "fatal"] 3 v with
  | [ready, version, fatal] =>
    let ready ← match ready with
      | none => some false
      | some r => bool? r
    pure ⟨ready, ← text? version, ← text? fatal⟩
  | _ => none

/-- A line as a handshake. -/
def decode? (line : String) : Option Handshake := (Json.parse? line).bind ofJson?

end Handshake

/-- An answer to a request. -/
structure Response where
  id : Nat
  valid : Bool
  error? : Option String
  deriving DecidableEq, Repr

namespace Response

/-- A JSON value as a response. -/
def ofJson? (v : Json) : Option Response := do
  match ← fields? ["id", "valid", "error"] 2 v with
  | [some id, some valid, error] => pure ⟨← identifier? id, ← bool? valid, ← text? error⟩
  | _ => none

/-- A line as a response. -/
def decode? (line : String) : Option Response := (Json.parse? line).bind ofJson?

end Response

/-- The line of a request, without its line feed. -/
def requestLine (id : Nat) (code : String) : String :=
  (Json.record [("id", .nat id), ("code", .text code)]).compact

end FenceLint.Harness
