import FenceLint.CommandLine.Help
import FenceLint.CommandLine.Options
import FenceLint.Engine.Check
import FenceLint.Log.Setup
import FenceLint.Report.Encoding
import FenceLint.Report.Printer
import FenceLint.Targets.Basic

/-!
A run of the program. It resolves its targets, checks them, prints one report, and leaves nothing
behind unless it is told to keep the block files. Reports go to standard output, and all that the
run says about itself goes to its log.
-/

set_option autoImplicit false

namespace FenceLint.CommandLine

/-- What a run works on: the place for temporary directories, and the machine. -/
abbrev Work (α : Type) : Type := Act (Artifact.Area × Engine.Machine) α

/-- How the program ends. -/
structure Ending where
  exitCode : Nat
  /-- What it prints. -/
  output : String
  /-- How its log is written, if it got as far as setting that up. -/
  log? : Option Log.Config
  deriving DecidableEq, Repr

/-- The ending that a run comes to: none if a call in it has never come back. -/
def ending? (r : Ran (Artifact.Area × Engine.Machine) Ending) : Option Ending :=
  if r.state.2.stalled then none else some r.value

variable {σ : Type}

/-- Says a line on the terminal. -/
def say (line : String) : Act σ Unit := Act.tell (.note line)

/-- Says a line if the run is to be talkative. -/
def sayIf (talkative : Bool) (line : String) : Act σ Unit :=
  if talkative then say line else pure ()

namespace Options

/-- The limit on each block. -/
def limit (o : Options) : Option Duration :=
  if o.timeoutMillis = 0 then none else some (.ofMillis o.timeoutMillis)

/-- The engine as the environment configures it, and the switches on top. -/
def engine (o : Options) (site : Site) : Engine.Config :=
  (Engine.Config.ofVariables site.value?).override o.node? o.packages?

/-- A checker that makes its engine when it needs one. -/
def checker (o : Options) (site : Site) : Checker Engine.Machine Engine :=
  .new o.language o.limit (Engine.setup site (o.engine site))

/-- The styles of what is printed: none unless asked for, standard output being no terminal. -/
def ink (o : Options) (site : Site) : Ink :=
  match o.color with
  | .always => if Log.Config.isVivid site.value? then .vivid else .pale
  | _ => .plain

/-- The settings of the log. The environment goes before the switches. -/
def logging (o : Options) (site : Site) : Except Log.SetupError Log.Config :=
  let level := (Log.Config.levelOf? site.value?).getD o.logLevel.name
  let format := (site.value? Log.formatVariable).getD o.logFormat.name
  Log.Config.choose site.value? (some level) (some format)

/-- How reports are printed for people. -/
def printer (o : Options) (site : Site) : Printer := ⟨o.ink site, o.quiet⟩

/-- A report on one document as it is printed. -/
def reportText (o : Options) (site : Site) (single : Bool) (r : Report) : String :=
  match o.reportFormat single with
  | .human => (o.printer site).report r
  | .json => r.toJson.pretty ++ "\n"

/-- A report on several documents as it is printed. -/
def multiText (o : Options) (site : Site) (single : Bool) (m : MultiReport) : String :=
  match o.reportFormat single with
  | .human => (o.printer site).multiReport m
  | .json => m.toJson.pretty ++ "\n"

end Options

/-- Checks the targets: the outcome, and what is to be printed. -/
def check (site : Site) (o : Options) (t : Targets) :
    Act (Scene Engine.Machine Engine) (Except Error (Outcome × String)) := do
  match t.single, t.documents with
  | true, [document] =>
    match ← Scene.checkDocument Engine.backend site.disk.readText document with
    | .error e => pure (.error e)
    | .ok report => pure (.ok (report.outcome, o.reportText site t.single report))
  | _, documents =>
    match ← Scene.checkDocuments Engine.backend site.disk.readText documents with
    | .error e => pure (.error e)
    | .ok multi => pure (.ok (multi.outcome, o.multiText site t.single multi))

/-- Parts with the directory of block files: it is kept with a word on where it is, or removed. -/
def partWithArtifacts (o : Options) : Act (Scene Engine.Machine Engine) Unit := do
  match ← Scene.takeArtifacts with
  | none => pure ()
  | some dir =>
    if o.keepTemp then say s!"Kept extracted blocks in {dir.path}"
    else Scene.onArea dir.close

/-- Checks the targets with a directory for block files. -/
def checkKeeping (site : Site) (o : Options) (t : Targets) (dir : Artifact.Dir) :
    Work (Except Error (Outcome × String)) :=
  Scene.withChecker (o.checker site) do
    Scene.giveArtifacts dir
    let result ← check site o t
    partWithArtifacts o
    Engine.release
    pure result

/-- Says how a run finished that could be carried out. -/
def sayFinished (o : Options) : Except Error (Outcome × String) → Work Unit
  | .error _ => pure ()
  | .ok (outcome, _) => do
    Act.log .debug Log.Target.commandLine "Run finished"
      [("outcome", .shown outcome.name), ("exit_code", .count outcome.exitCode)]
    sayIf o.verbose s!"Result: {outcome.name}"

/-- Checks what the options ask for. -/
def carryOut (site : Site) (o : Options) : Work (Except Error (Outcome × String)) := do
  sayIf o.verbose s!"{programName} v{programVersion}"
  match Targets.resolve site.disk o.inputs o.dir? o.recursive with
  | .error e => pure (.error e)
  | .ok targets =>
    let count := targets.documents.length
    Act.log .debug Log.Target.commandLine "Resolved input documents"
      [("documents", .count count), ("single", .flag targets.single)]
    sayIf o.verbose s!"Checking {count} document(s)"
    match ← Act.focus Prod.fst (fun area s ↦ (area, s.2)) Artifact.Dir.create with
    | .error e => pure (.error e)
    | .ok dir =>
      let result ← checkKeeping site o targets dir
      sayFinished o result
      pure result

/-- What is said of an error that ends a run. -/
def complaint (e : Error) : String :=
  match e with
  | .setup _ => s!"Setup error: {e.message}"
  | _ => s!"Error: {e.chain}"

/-- Runs with the log set up: the exit status and what is printed. -/
def runLogged (site : Site) (o : Options) : Work (Nat × String) := do
  if o.help then
    say ("\n".intercalate helpLines ++ "\n")
    pure (Outcome.unable.exitCode, "")
  else
    match ← carryOut site o with
    | .ok (outcome, output) => pure (outcome.exitCode, output)
    | .error e =>
      say (complaint e)
      pure (e.outcome.exitCode, "")

/-- Runs as the options ask for. -/
def run (site : Site) (o : Options) : Work Ending := do
  match o.logging site with
  | .ok config =>
    let (exitCode, output) ← runLogged site o
    pure ⟨exitCode, output, some config⟩
  | .error e =>
    say s!"Warning: Failed to initialize logging: {e.message}"
    let (exitCode, output) ← runLogged site o
    pure ⟨exitCode, output, none⟩

/-- Ends a command line that asks for no run. -/
def halt (stop : Stop) : Work Ending := do
  match stop with
  | .version => pure ⟨stop.exitCode, s!"{programName} {programVersion}\n", none⟩
  | .nothingGiven =>
    say ("\n".intercalate helpLines)
    pure ⟨stop.exitCode, "", none⟩
  | _ =>
    say ("error: " ++ stop.fault?.getD "")
    pure ⟨stop.exitCode, "", none⟩

/-- The program with these arguments. -/
def execute (site : Site) (arguments : List String) : Work Ending :=
  match Options.parse arguments with
  | .ok o => run site o
  | .error stop => halt stop

end FenceLint.CommandLine
