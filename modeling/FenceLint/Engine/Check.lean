import FenceLint.Checker.Run
import FenceLint.Engine.Basic

/-!
Checking documents with the diagram engine. The engine is looked for only when a document has
blocks.
-/

set_option autoImplicit false

namespace FenceLint.Engine

/-- A checker that sets up the engine when it needs it. -/
def checker (site : Site) (config : Config) (language : String) (limit : Option Duration) :
    Checker Machine Engine :=
  .new language limit (setup site config)

/-- Ends the process of a checker's engine, if there is one. -/
def release : Act (Scene Machine Engine) Unit := do
  let s ← get
  match s.checker.parser? with
  | some engine =>
    Act.focus (fun s : Scene Machine Engine ↦ (engine, s.world))
      (fun after s ↦ { s with
        checker := { s.checker with parser? := some after.1 }
        world := after.2 })
      stop
  | none => pure ()

/-- Checks one document with the engine as the environment configures it. -/
def checkFile (site : Site) (path : String) :
    Act (Artifact.Area × Machine) (Except Error Report) :=
  Scene.withChecker (checker site (.ofVariables site.value?) Fence.defaultLanguage defaultLimit) do
    let result ← Scene.checkDocument backend site.disk.readText path
    release
    pure result

end FenceLint.Engine
