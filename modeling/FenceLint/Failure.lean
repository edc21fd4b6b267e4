import FenceLint.Verdict

/-!
Ways in which a diagram parser fails on a block, and what each one is reported as. Only a
rejection can be silent, and then it is reported as an unspecified syntax error.
-/

set_option autoImplicit false

namespace FenceLint

/-- Why a parser did not accept a block. -/
inductive Failure
  /-- The parser rejected the block. -/
  | rejected (message : String)
  /-- The parser gave no answer within the limit. -/
  | expired (limit : Duration)
  /-- The parser went away or could not be reached. -/
  | crashed (message : String)
  deriving DecidableEq, Repr

namespace Failure

/-- What a failure says. -/
def message : Failure → String
  | rejected text => if Text.isAllBlank text then Reason.unspecified.text else text
  | expired limit => s!"validation timed out after {limit.millis}ms"
  | crashed text => s!"parser failed: {text}"

end Failure

/-- Answers can be told apart as failures can. -/
instance : DecidableEq (Except Failure Unit)
  | .ok (), .ok () => isTrue rfl
  | .error a, .error b =>
    if h : a = b then isTrue (congrArg Except.error h)
    else isFalse fun herror ↦ h (Except.error.inj herror)
  | .ok _, .error _ => isFalse nofun
  | .error _, .ok _ => isFalse nofun

end FenceLint
