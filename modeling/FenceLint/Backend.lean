import FenceLint.Act
import FenceLint.Failure
import FenceLint.Log.Target
import FenceLint.Text.Quoted

/-!
Diagram parsers and how one block is validated. A backend is a way to work a parser `π` in a world
`ω`: it makes the parser ready, and it asks it about a code within a limit. Validating asks once,
times only the question, and turns every kind of failure into a verdict.
-/

set_option autoImplicit false

namespace FenceLint

/-- A kind of diagram parser. -/
structure Backend (ω π : Type) where
  name : π → String
  /-- Gets ready for the next question. -/
  prepare : Act (π × ω) (Except Failure Unit)
  /-- Asks about a code; the answer comes with the time it took. -/
  parse : String → Option Duration → Act (π × ω) (Except Failure Unit × Duration)

/-- The limit on one question unless another is set. -/
def defaultLimit : Duration := .ofMillis 10000

namespace Backend

variable {ω π : Type}

/-- The verdict on an answer. -/
def verdict : Except Failure Unit × Duration → Verdict
  | (.ok (), elapsed) => .passed elapsed
  | (.error failure, elapsed) => .failed failure.message elapsed

/-- An answer as the log tells it. -/
def tellAnswer : Except Failure Unit × Duration → Act (π × ω) Unit
  | (.ok (), elapsed) =>
    Act.log .trace Log.Target.validator "Block is valid" [("elapsed_us", .count elapsed.micros)]
  | (.error failure, elapsed) =>
    Act.log .debug Log.Target.validator "Block is invalid"
      [("elapsed_us", .count elapsed.micros), ("failure", .shown failure.message)]

@[simp] theorem tellAnswer_state (answer : Except Failure Unit × Duration) (s : π × ω) :
    ((tellAnswer answer).run s).state = s := by
  rcases answer with ⟨failure | _, elapsed⟩ <;> rfl

/-- Validates one code. A parser that cannot get ready is not asked. -/
def validate (b : Backend ω π) (limit : Option Duration) (code : String) :
    Act (π × ω) Verdict :=
  Act.within ⟨.debug, Log.Target.validator, "validate",
      [("code_len", .count code.utf8ByteSize)]⟩ do
    match ← b.prepare with
    | .error failure =>
      Act.log .debug Log.Target.validator "Parser not ready" [("failure", .shown failure.message)]
      pure (verdict (.error failure, .zero))
    | .ok () =>
      let answer ← b.parse code limit
      tellAnswer answer
      pure (verdict answer)

/-- A limit in words. -/
def describeLimit : Option Duration → String
  | none => "None"
  | some d => "Some(" ++ d.describe ++ ")"

/-- A validator in words: its parser and its limit. -/
def describe (b : Backend ω π) (parser : π) (limit : Option Duration) : String :=
  "Validator \x7b parser: " ++ Text.quoted (b.name parser) ++
    ", config: ValidatorConfig \x7b timeout: " ++ describeLimit limit ++ " \x7d \x7d"

end Backend

end FenceLint
