import FenceLint.Act
import FenceLint.Harness.Session
import FenceLint.Site

/-!
The machine that harness processes run on: it starts them, keeps a record of their lives, and
measures time. It also tells whether the program still runs: a call that never comes back stalls it,
and what is done after such a call is done by nobody.
-/

set_option autoImplicit false

namespace FenceLint.Engine

/-- How a harness process is started. -/
structure Launch where
  node : String
  /-- The directory of packages, handed over in an environment variable. -/
  packages : String
  /-- The program that Node.js is to run. -/
  script : String
  deriving DecidableEq, Repr

namespace Launch

/-- The variable that hands over the directory of packages. -/
def packagesVariable : String := "MERMAID_CHECK_NODE_MODULES_DIR"

/-- The arguments of Node.js. -/
def arguments (l : Launch) : List String := ["--input-type=module", "--eval", l.script]

/-- What is set in the environment of the process. -/
def environment (l : Launch) : List (String × String) := [(packagesVariable, l.packages)]

end Launch

/-- What happens to harness processes. -/
inductive Life
  /-- A start that gave no process. -/
  | refused
  | started (number : Nat)
  | ended (number : Nat)
  deriving DecidableEq, Repr

/-- A machine. -/
structure Machine where
  /-- The program that harness processes run. -/
  script : String
  /-- What comes of a launch after so many processes: a process, or a fault. -/
  exec : Launch → Nat → Except Fault Harness.Program
  /-- How long the request with this number, over all processes, takes to answer. -/
  pace : Nat → Duration
  /-- The processes started so far. -/
  launches : List Launch
  /-- What has happened to processes, the oldest first. -/
  lives : List Life
  /-- Requests asked so far. -/
  asked : Nat
  /-- The requests that were written to a process, the oldest first. -/
  written : List String
  /-- Whether a call has never come back. -/
  stalled : Bool

namespace Machine

/-- A machine on which nothing runs yet. -/
def fresh (script : String) (exec : Launch → Nat → Except Fault Harness.Program)
    (pace : Nat → Duration) : Machine :=
  ⟨script, exec, pace, [], [], 0, [], false⟩

/-- Ends a process. -/
def kill (number : Nat) : Act Machine Unit :=
  modify fun m ↦ { m with lives := m.lives ++ [Life.ended number] }

end Machine

/-- Starts a harness process and waits until it is ready. One that does not get ready is ended. -/
def openSession (node packages : String) (limit : Duration) :
    Act Machine (Except String Harness.Session) := do
  Act.log .debug Log.Target.session "Spawning harness"
    [("node", .shown node), ("node_modules", .shown packages)]
  let m ← get
  let launch : Launch := ⟨node, packages, m.script⟩
  let number := m.launches.length
  match m.exec launch number with
  | .error fault =>
    set { m with lives := m.lives ++ [Life.refused] }
    pure (.error s!"failed to start {node}: {fault.text}")
  | .ok program =>
    set { m with launches := m.launches ++ [launch], lives := m.lives ++ [Life.started number] }
    let child := Harness.Child.start program
    let w := Harness.awaitReady limit child.stance child.unread
    Act.tellAll w.log
    match w.answer with
    | .error reason =>
      Machine.kill number
      pure (.error reason)
    | .ok version => pure (.ok ⟨number, { child with unread := w.unread }, 0, version⟩)

/-- Asks a session about a code, and measures how long it takes. For want of an answer the machine
stalls. -/
def askSession (s : Harness.Session) (code : String) (limit? : Option Duration) :
    Act Machine ((Except Failure Unit × Duration) × Harness.Session) := do
  let asked := s.ask code limit?
  let elapsed ← modifyGet fun m : Machine ↦ (m.pace m.asked,
    { m with
      asked := m.asked + 1
      written := m.written ++ asked.written?.toList
      stalled := m.stalled || asked.answer.isNone })
  Act.tellAll asked.log
  pure ((asked.verdict, elapsed), asked.session)

end FenceLint.Engine
