import FenceLint.Backend
import FenceLint.Engine.Config
import FenceLint.Engine.Locate
import FenceLint.Engine.Machine

/-!
The diagram engine: Mermaid in a Node.js process that is started once and asked about every block.
A process that does not answer in time or goes away is ended, and the next block gets a new one.
-/

set_option autoImplicit false

namespace FenceLint

/-- An engine that has been set up. -/
structure Engine where
  node : String
  packages : String
  startupLimit : Duration
  /-- The version of Mermaid. -/
  version : String
  /-- The running conversation, if there is one. -/
  session? : Option Harness.Session

namespace Engine

/-- Finds all that the engine needs, starts a process and waits until it is ready. -/
def setup (site : Site) (config : Config) : Act Machine (Except Error Engine) :=
  Act.within ⟨.info, Log.Target.engine, "mermaid_js_setup", []⟩ do
    match locateNode site config.node? with
    | .error e => pure (.error e)
    | .ok node =>
      match ← locatePackages site (Strategy.usual config.packages?) with
      | .error e => pure (.error e)
      | .ok packages =>
        match ← openSession node packages config.startupLimit with
        | .error reason => pure (.error (.setup reason))
        | .ok session =>
          Act.log .info Log.Target.engine "Mermaid parser ready"
            [("version", .shown session.version), ("node", .shown node),
              ("node_modules", .shown packages)]
          pure (.ok ⟨node, packages, config.startupLimit, session.version, some session⟩)

/-- An action on the engine and its machine. -/
abbrev Work (α : Type) : Type := Act (Engine × Machine) α

/-- An action on the machine alone. -/
def onMachine {α : Type} (a : Act Machine α) : Work α :=
  Act.focus Prod.snd (fun m s ↦ (s.1, m)) a

/-- Replaces the conversation. -/
def setSession (session? : Option Harness.Session) : Work Unit :=
  modify fun s ↦ ({ s.1 with session? := session? }, s.2)

/-- Starts a process if there is no conversation. -/
def restart : Work (Except Failure Unit) := do
  let engine := (← get).1
  match engine.session? with
  | some _ => pure (.ok ())
  | none =>
    Act.log .info Log.Target.engine "Restarting parser process" []
    match ← onMachine (openSession engine.node engine.packages engine.startupLimit) with
    | .error reason =>
      pure (.error (.crashed s!"could not restart parser: {(Error.setup reason).message}"))
    | .ok s =>
      setSession (some s)
      pure (.ok ())

/-- The running conversation, or a new one. -/
def session : Work (Except Failure Harness.Session) := do
  match ← restart with
  | .error failure => pure (.error failure)
  | .ok () =>
    match (← get).1.session? with
    | some s => pure (.ok s)
    | none => pure (.error (.crashed "parser is not running"))

/-- Whether a failure means that the process is of no more use. -/
def isBroken : Failure → Bool
  | .rejected _ => false
  | .expired _ => true
  | .crashed _ => true

/-- Ends the running process, if there is one. -/
def stop : Work Unit := do
  match (← get).1.session? with
  | none => pure ()
  | some s => onMachine (Machine.kill s.number)
  setSession none

/-- Gets ready for a block. -/
def prepare : Work (Except Failure Unit) := do
  match ← session with
  | .error failure => pure (.error failure)
  | .ok _ => pure (.ok ())

/-- Asks about a block. A process that fails to answer is ended. -/
def parse (code : String) (limit? : Option Duration) :
    Work (Except Failure Unit × Duration) := do
  match ← session with
  | .error failure => pure (.error failure, .zero)
  | .ok s =>
    let (answer, after) ← onMachine (askSession s code limit?)
    setSession (some after)
    match answer.1 with
    | .ok () => pure answer
    | .error failure =>
      if isBroken failure then
        Act.log .warn Log.Target.engine
          "Stopping parser process; it will restart for the next block"
          [("failure", .shown failure.message)]
        stop
      pure answer

/-- The engine as a diagram parser. -/
def backend : Backend Machine Engine where
  name _ := "mermaid.js"
  prepare := prepare
  parse := parse

end Engine

end FenceLint
