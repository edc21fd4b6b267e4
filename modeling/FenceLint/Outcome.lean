/-!
How a run ends. Outcomes are ordered from best to worst, and two of them combine to the worse.
-/

set_option autoImplicit false

namespace FenceLint

/-- How a run ended. -/
inductive Outcome
  /-- No block is invalid. -/
  | passed
  /-- Some block is invalid. -/
  | invalid
  /-- The check itself could not be carried out. -/
  | unable
  deriving DecidableEq, Repr

namespace Outcome

/-- The exit status, which grows as outcomes get worse. -/
def exitCode : Outcome → Nat
  | passed => 0 | invalid => 1 | unable => 2

/-- The outcome in one word. -/
def name : Outcome → String
  | passed => "passed" | invalid => "invalid" | unable => "error"

/-- Better outcomes come first. -/
def compare (a b : Outcome) : Ordering := Ord.compare a.exitCode b.exitCode

/-- The worse of two outcomes. -/
def combine (a b : Outcome) : Outcome := if a.exitCode ≤ b.exitCode then b else a

end Outcome

end FenceLint
