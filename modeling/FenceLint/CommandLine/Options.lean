import FenceLint.CommandLine.Switch
import FenceLint.Decimal.Numeral

/-!
What the command line asks for. Arguments are read from left to right, and the first one that goes
wrong decides the error. A switch whose value is the next argument is settled only when the argument
after that is known to be in order, so an argument that is none is reported before a value that is
none.
-/

set_option autoImplicit false

namespace FenceLint.CommandLine

/-- The settings of a run. -/
structure Options where
  /-- Files and patterns. -/
  inputs : List String
  /-- A directory to check as well. -/
  dir? : Option String
  /-- Descend into the directories below it. -/
  recursive : Bool
  quiet : Bool
  format? : Option ReportFormat
  /-- Keep the directory of block files. -/
  keepTemp : Bool
  /-- The limit on each block in milliseconds; zero is none. -/
  timeoutMillis : Nat
  node? : Option String
  packages? : Option String
  /-- The tag of the fences to look for. -/
  language : String
  color : ColorChoice
  verbose : Bool
  logLevel : Log.Level
  logFormat : Log.Format
  help : Bool
  deriving DecidableEq, Repr

/-- Why a command line asks for no run. -/
inductive Stop
  /-- It asks for the version. -/
  | version
  /-- It asks for nothing at all. -/
  | nothingGiven
  /-- An argument that looks like a switch and is none. -/
  | unknownSwitch (shown : String)
  /-- A switch without the value it takes. -/
  | valueMissing (s : Switch)
  /-- A value that is not among the choices. -/
  | notAChoice (s : Switch) (value : String)
  | notANumber (s : Switch) (value : String) (reason : Decimal.Numeral.Error)
  /-- A value for a switch that takes none. -/
  | valueTooMany (s : Switch) (value : String)
  | repeated (s : Switch)
  /-- A switch that needs another one. -/
  | needs (other : Switch)
  deriving DecidableEq, Repr

namespace Options

/-- The settings of an empty command line. -/
def default : Options where
  inputs := []
  dir? := none
  recursive := false
  quiet := false
  format? := none
  keepTemp := false
  timeoutMillis := 10000
  node? := none
  packages? := none
  language := "mermaid"
  color := .auto
  verbose := false
  logLevel := .warn
  logFormat := .compact
  help := false

/-- How a report is written: as asked for, else as JSON for a single document that is to be printed
quietly, else for people. -/
def reportFormat (o : Options) (single : Bool) : ReportFormat :=
  o.format?.getD (if single && o.quiet then .json else .human)

/-- Turns a switch without a value on. -/
def raise (o : Options) : Switch → Options
  | .recursive => { o with recursive := true }
  | .quiet => { o with quiet := true }
  | .keepTemp => { o with keepTemp := true }
  | .verbose => { o with verbose := true }
  | .help => { o with help := true }
  | _ => o

/-- The path that a value is. -/
def pathOf (s : Switch) (value : String) : Except Stop String :=
  if value.isEmpty then .error (.valueMissing s) else .ok value

/-- The choice that a value names. -/
def choiceOf {α : Type} (s : Switch) (named : List (String × α)) (value : String) :
    Except Stop α :=
  match named.lookup value with
  | some choice => .ok choice
  | none => .error (if value.isEmpty then .valueMissing s else .notAChoice s value)

/-- The number that a value is. -/
def numberOf (s : Switch) (value : String) : Except Stop Nat :=
  match Decimal.Numeral.read Decimal.wordBound value with
  | .ok n => .ok n
  | .error reason => .error (.notANumber s value reason)

/-- Gives a switch its value. -/
def accept (o : Options) (s : Switch) (value : String) : Except Stop Options :=
  match s with
  | .dir => do pure { o with dir? := some (← pathOf s value) }
  | .format => do pure { o with format? := some (← choiceOf s ReportFormat.named value) }
  | .timeout => do pure { o with timeoutMillis := ← numberOf s value }
  | .node => do pure { o with node? := some (← pathOf s value) }
  | .packages => do pure { o with packages? := some (← pathOf s value) }
  | .language => pure { o with language := value }
  | .color => do pure { o with color := ← choiceOf s ColorChoice.named value }
  | .logLevel => do pure { o with logLevel := ← choiceOf s logLevels value }
  | .logFormat => do pure { o with logFormat := ← choiceOf s logFormats value }
  | _ => pure o

end Options

/-- How far the reading of a command line has come. -/
structure Reading where
  options : Options
  /-- The switches met so far. -/
  met : List Switch
  /-- A switch that is not settled yet, with its value once that is there. -/
  pending? : Option (Switch × Option String)
  /-- Everything from here on is an input. -/
  literal : Bool
  deriving DecidableEq, Repr

namespace Reading

/-- Before the first argument. -/
def start : Reading := ⟨.default, [], none, false⟩

/-- Notes that a switch was met; none may be met twice. -/
def meet (r : Reading) (s : Switch) : Except Stop Reading :=
  if r.met.contains s then .error (.repeated s) else .ok { r with met := s :: r.met }

/-- Gives a switch its value. -/
def give (r : Reading) (s : Switch) (value : String) : Except Stop Reading := do
  let r ← r.meet s
  pure { r with options := ← r.options.accept s value }

/-- Settles the pending switch. -/
def settle (r : Reading) : Except Stop Reading :=
  match r.pending? with
  | none => .ok r
  | some (s, none) => .error (.valueMissing s)
  | some (s, some value) => { r with pending? := none }.give s value

/-- Turns a switch on that takes no value. -/
def raise (r : Reading) (s : Switch) : Except Stop Reading := do
  let r ← r.settle
  if s = .version then .error .version
  else
    let r ← r.meet s
    pure { r with options := r.options.raise s }

/-- Reads a switch by its long name, with the value behind an equals sign if there is one. -/
def readLong (r : Reading) (name : String) (value? : Option String) : Except Stop Reading :=
  match Switch.ofLong? name with
  | none => .error (.unknownSwitch ("--" ++ name))
  | some s =>
    match s.value?, value? with
    | none, none => r.raise s
    | none, some value => .error (.valueTooMany s value)
    | some _, none => do pure { ← r.settle with pending? := some (s, none) }
    | some _, some value => do (← r.settle).give s value

/-- Reads the letters of switches behind one hyphen. -/
def readShorts (r : Reading) : List Char → Except Stop Reading
  | [] => .ok r
  | letter :: rest =>
    match Switch.ofShort? letter with
    | none => .error (.unknownSwitch ("-" ++ String.singleton letter))
    | some s => do (← r.raise s).readShorts rest

/-- Takes an argument as an input. -/
def addInput (r : Reading) (input : String) : Except Stop Reading := do
  let r ← r.settle
  pure { r with options := { r.options with inputs := r.options.inputs ++ [input] } }

/-- Takes an argument as the value of the pending switch, or else as an input. -/
def readPlain (r : Reading) (text : String) : Except Stop Reading :=
  match r.pending? with
  | some (s, none) => .ok { r with pending? := some (s, some text) }
  | _ => r.addInput text

/-- Reads one argument. -/
def read (r : Reading) (argument : String) : Except Stop Reading :=
  if r.literal then r.addInput argument
  else match argument.toList with
    | ['-', '-'] => .ok { r with literal := true }
    | '-' :: '-' :: body =>
      let value := (body.dropWhile (· != '=')).drop 1
      r.readLong (String.ofList (body.takeWhile (· != '=')))
        (if body.contains '=' then some (String.ofList value) else none)
    | '-' :: letter :: letters => r.readShorts (letter :: letters)
    | _ => r.readPlain argument

/-- The settings at the end of the command line. -/
def finish (r : Reading) : Except Stop Options := do
  let r ← r.settle
  if r.met.isEmpty && r.options.inputs.isEmpty then .error .nothingGiven
  else if r.options.recursive && r.options.dir?.isNone then .error (.needs .dir)
  else pure r.options

end Reading

/-- The settings that arguments ask for. -/
def Options.parse (arguments : List String) : Except Stop Options := do
  (← arguments.foldlM Reading.read .start).finish

namespace Stop

/-- What is said of a command line that asks for no run, by name of the fault alone. -/
def fault? : Stop → Option String
  | version => none
  | nothingGiven => none
  | unknownSwitch shown => some s!"unexpected argument '{shown}' found"
  | valueMissing s => some s!"a value is required for '{s.shown}' but none was supplied"
  | notAChoice s value => some s!"invalid value '{value}' for '{s.shown}'"
  | notANumber s value reason =>
    some s!"invalid value '{value}' for '{s.shown}': {reason.message}"
  | valueTooMany s value =>
    some s!"unexpected value '{value}' for '{s.shown}' found; no more were expected"
  | repeated s => some s!"the argument '{s.shown}' cannot be used multiple times"
  | needs other =>
    some ("the following required arguments were not provided:\n  " ++ other.shown)

/-- The exit status; to ask for the version is no fault. -/
def exitCode : Stop → Nat
  | version => 0
  | _ => 2

end Stop

end FenceLint.CommandLine
