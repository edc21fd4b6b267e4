import FenceLint.Duration
import FenceLint.Text.Blank

/-!
The verdict on one block: valid, or invalid for a reason. There is a reason exactly when the block
is invalid, and a reason is never blank.
-/

set_option autoImplicit false

namespace FenceLint

/-- Why a block is invalid: a text with at least one character that is not blank. -/
structure Reason where
  text : String
  said : Text.isAllBlank text = false
  deriving DecidableEq, Repr

namespace Reason

/-- What is said of a block whose parser gave no reason. -/
def unspecified : Reason := ⟨"syntax error", by decide +kernel⟩

/-- A text as a reason; a blank one says nothing and becomes `unspecified`. -/
def ofString (s : String) : Reason :=
  if h : Text.isAllBlank s = false then ⟨s, h⟩ else unspecified

end Reason

/-- What checking one block came to. -/
structure Verdict where
  reason? : Option Reason
  /-- Time the check took, in milliseconds. -/
  elapsed : Float

namespace Verdict

/-- A block that is in order. -/
def passed (elapsed : Duration) : Verdict := ⟨none, elapsed.toMillis⟩

/-- A block that is rejected with a text, which may be blank. -/
def failed (error : String) (elapsed : Duration) : Verdict :=
  ⟨some (Reason.ofString error), elapsed.toMillis⟩

/-- A block is valid when there is no reason against it. -/
def isValid (v : Verdict) : Bool := v.reason?.isNone

/-- The text of the reason, if there is one. -/
def error? (v : Verdict) : Option String := v.reason?.map Reason.text

end Verdict

end FenceLint
