import FenceLint.Artifact.Area
import FenceLint.Backend
import FenceLint.Fence

/-!
A checker and its parser. A checker knows where a parser is to be had and sets one up for the first
block it meets. Success is for good: the parser serves all later blocks. So is a setup failure,
whose message every later block meets again; after any other error the next document tries anew.
-/

set_option autoImplicit false

namespace FenceLint

/-- Where a checker gets its parser. -/
inductive Supply (ω π : Type)
  /-- Each call may make one. -/
  | factory (make : Act ω (Except Error π))
  /-- One was handed over; `none` once it is taken. -/
  | single (parser? : Option π)

/-- What a checker keeps between documents. -/
structure Checker (ω π : Type) where
  /-- The tag of the fences to look for. -/
  language : String
  /-- The limit on each block; without one a parser may take forever. -/
  limit : Option Duration
  supply : Supply ω π
  /-- The parser, once it is set up. -/
  parser? : Option π
  /-- The message of a setup that failed for good. -/
  setupError? : Option String
  /-- Where blocks are kept, if they are. -/
  artifacts : Option Artifact.Dir
  /-- Documents with blocks met so far. -/
  documents : Nat

/-- A checker in its surroundings. -/
structure Scene (ω π : Type) where
  checker : Checker ω π
  area : Artifact.Area
  world : ω

namespace Checker

variable {ω π : Type}

/-- A checker that makes its parser when it needs one. -/
def new (language : String) (limit : Option Duration) (make : Act ω (Except Error π)) :
    Checker ω π :=
  ⟨language, limit, .factory make, none, none, none, 0⟩

/-- A checker with a parser at hand. -/
def withParser (language : String) (limit : Option Duration) (parser : π) : Checker ω π :=
  ⟨language, limit, .single (some parser), none, none, none, 0⟩

/-- Whether a parser is set up. -/
def isReady (c : Checker ω π) : Bool := c.parser?.isSome

end Checker

namespace Scene

variable {ω π α : Type}

/-- An action on the world. -/
def onWorld (a : Act ω α) : Act (Scene ω π) α :=
  Act.focus Scene.world (fun w s ↦ { s with world := w }) a

/-- An action on the place for temporary directories. -/
def onArea (a : Act Artifact.Area α) : Act (Scene ω π) α :=
  Act.focus Scene.area (fun area s ↦ { s with area := area }) a

/-- Gives the checker the parser to work with. -/
def setParser (parser : π) : Act (Scene ω π) Unit :=
  modify fun s ↦ { s with checker := { s.checker with parser? := some parser } }

/-- Notes that setup has failed for good. -/
def setSetupError (message : String) : Act (Scene ω π) Unit :=
  modify fun s ↦ { s with checker := { s.checker with setupError? := some message } }

/-- Asks the supply for a parser. -/
def draw : Act (Scene ω π) (Except Error π) := do
  match (← get).checker.supply with
  | .factory make => onWorld make
  | .single none => pure (.error (.setup "parser was already handed out"))
  | .single (some parser) =>
    modify fun s ↦ { s with checker := { s.checker with supply := .single none } }
    pure (.ok parser)

/-- Makes sure that a parser is set up, and gives it. -/
def parser : Act (Scene ω π) (Except Error π) := do
  let checker := (← get).checker
  match checker.setupError?, checker.parser? with
  | some message, _ => pure (.error (.setup message))
  | none, some p => pure (.ok p)
  | none, none =>
    Act.log .info Log.Target.checker "Setting up diagram parser" []
    match ← draw with
    | .ok p =>
      setParser p
      pure (.ok p)
    | .error (.setup message) =>
      setSetupError message
      pure (.error (.setup message))
    | .error e => pure (.error e)

/-- Validates a code with a parser that is set up, and puts the parser back. -/
def validate (b : Backend ω π) (p : π) (code : String) : Act (Scene ω π) Verdict := do
  let limit := (← get).checker.limit
  let verdict ← Act.focus (fun s : Scene ω π ↦ (p, s.world))
    (fun after s ↦ { s with
      checker := { s.checker with parser? := some after.1 }
      world := after.2 })
    (b.validate limit code)
  pure verdict

/-- Gives the checker a directory to keep blocks in; one that it still holds is discarded. -/
def giveArtifacts (dir : Artifact.Dir) : Act (Scene ω π) Unit := do
  match (← get).checker.artifacts with
  | some held => onArea held.discard
  | none => pure ()
  modify fun s ↦ { s with checker := { s.checker with artifacts := some dir } }

/-- Runs an action with a checker that is its own. -/
def withChecker (checker : Checker ω π) (a : Act (Scene ω π) α) : Act (Artifact.Area × ω) α :=
  fun start ↦
    let r := Act.run a ⟨checker, start.1, start.2⟩
    ⟨r.value, (r.state.area, r.state.world), r.log⟩

/-- Takes the directory of blocks from the checker. -/
def takeArtifacts : Act (Scene ω π) (Option Artifact.Dir) := do
  let held := (← get).checker.artifacts
  modify fun s ↦ { s with checker := { s.checker with artifacts := none } }
  pure held

end Scene

end FenceLint
