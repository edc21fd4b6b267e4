import FenceLint.Log.Format
import FenceLint.Log.Record

/-!
The switches of the command line: what each is called, whether it takes a value, and what help says
of it.
-/

set_option autoImplicit false

namespace FenceLint.CommandLine

/-- How reports are written. -/
inductive ReportFormat
  /-- For people. -/
  | human
  | json
  deriving DecidableEq, Repr

/-- When colors are used. -/
inductive ColorChoice
  /-- On a terminal. -/
  | auto
  | always
  | never
  deriving DecidableEq, Repr

/-- The formats of reports by name. -/
def ReportFormat.named : List (String × ReportFormat) := [("human", .human), ("json", .json)]

/-- The choices of color by name. -/
def ColorChoice.named : List (String × ColorChoice) :=
  [("auto", .auto), ("always", .always), ("never", .never)]

/-- The levels of the log by name. -/
def logLevels : List (String × Log.Level) := Log.Level.all.map fun l ↦ (l.name, l)

/-- The formats of the log by name. -/
def logFormats : List (String × Log.Format) := Log.Format.all.map fun f ↦ (f.name, f)

/-- A switch of the command line. -/
inductive Switch
  | dir | recursive | quiet | format | keepTemp | timeout | node | packages | language | color
  | verbose | logLevel | logFormat | help | version
  deriving DecidableEq, Repr

namespace Switch

/-- All switches, in the order of the help. -/
def all : List Switch :=
  [dir, recursive, quiet, format, keepTemp, timeout, node, packages, language, color, verbose,
    logLevel, logFormat, help, version]

/-- The name behind two hyphens. -/
def long : Switch → String
  | dir => "dir"
  | recursive => "recursive"
  | quiet => "quiet"
  | format => "format"
  | keepTemp => "keep-temp"
  | timeout => "timeout-ms"
  | node => "node"
  | packages => "node-modules"
  | language => "language"
  | color => "color"
  | verbose => "verbose"
  | logLevel => "log-level"
  | logFormat => "log-format"
  | help => "help"
  | version => "version"

/-- The letter behind one hyphen, for those that have one. -/
def short? : Switch → Option Char
  | recursive => some 'r'
  | quiet => some 'q'
  | verbose => some 'v'
  | help => some 'h'
  | version => some 'V'
  | _ => none

/-- What help calls the value, for those that take one. -/
def value? : Switch → Option String
  | dir => some "PATH"
  | format => some "FORMAT"
  | timeout => some "MS"
  | node => some "PATH"
  | packages => some "PATH"
  | language => some "LANGUAGE"
  | color => some "COLOR"
  | logLevel => some "LOG_LEVEL"
  | logFormat => some "LOG_FORMAT"
  | _ => none

/-- The values to choose from, where these are few. -/
def choices : Switch → List String
  | format => ReportFormat.named.map (·.1)
  | color => ColorChoice.named.map (·.1)
  | logLevel => logLevels.map (·.1)
  | logFormat => logFormats.map (·.1)
  | _ => []

/-- The value that stands for a switch that is left out. -/
def default? : Switch → Option String
  | timeout => some "10000"
  | language => some "mermaid"
  | color => some "auto"
  | logLevel => some "warn"
  | logFormat => some "compact"
  | _ => none

/-- What the switch does. -/
def summary : Switch → String
  | dir => "Check every Markdown file in a directory"
  | recursive => "Descend into subdirectories of --dir"
  | quiet => "Only print failures and totals; a single document is printed as JSON"
  | format => "Output format"
  | keepTemp => "Keep the directory of extracted block files and print its path"
  | timeout => "Per-block validation timeout in milliseconds (0 disables it)"
  | node => "Node.js binary used to run mermaid"
  | packages => "node_modules directory (or project root) containing mermaid and jsdom"
  | language => "Fence language tag that marks diagram blocks"
  | color => "When to use colors in output"
  | verbose => "Enable verbose output"
  | logLevel => "Set log level (trace|debug|info|warn|error)"
  | logFormat => "Set log format (compact|pretty|json)"
  | help => "Print help"
  | version => "Print version"

/-- The switch with its value, as messages show it. -/
def shown (s : Switch) : String :=
  "--" ++ s.long ++
    match s.value? with
    | none => ""
    | some value => " <" ++ value ++ ">"

/-- The switch with a long name. -/
def ofLong? (name : String) : Option Switch := all.find? fun s ↦ s.long = name

/-- The switch with a letter. -/
def ofShort? (letter : Char) : Option Switch := all.find? fun s ↦ s.short? = some letter

end Switch

end FenceLint.CommandLine
