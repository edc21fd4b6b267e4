import FenceLint.Log.Filter
import FenceLint.Log.Layout

/-!
How a log is set up. What is asked for comes first, then the environment, then the usual settings. A
level that cannot be read counts as the usual one, an unknown format is an error, and once a log is
set up it stays as it is.
-/

set_option autoImplicit false

namespace FenceLint.Log

/-- The environment variables that name the level, the first that is set deciding. -/
def levelVariables : List String := ["MERMAID_CHECK_LOG_LEVEL", "RUST_LOG"]

/-- The environment variable that names the format. -/
def formatVariable : String := "MERMAID_CHECK_LOG_FORMAT"

/-- The environment variable that turns colors off when it is set to anything but nothing. -/
def plainVariable : String := "NO_COLOR"

/-- How a log is written. -/
structure Config where
  filter : Filter
  format : Format
  vivid : Bool
  deriving DecidableEq, Repr

/-- Why a log cannot be set up. -/
inductive SetupError
  | unknownFormat (name : String)
  | alreadySet
  deriving DecidableEq, Repr

/-- What a setup error says. -/
def SetupError.message : SetupError → String
  | unknownFormat name => "Invalid log format: " ++ Format.unknown name
  | alreadySet => "a global default trace dispatcher has already been set"

namespace Config

/-- The level that the environment names. -/
def levelOf? (value? : String → Option String) : Option String := levelVariables.findSome? value?

/-- The filter of a level, which may be a list of directives. -/
def filterOf (level : String) : Filter :=
  (Filter.parse? level).getD (.ofLimit (some .warn))

/-- Whether the environment lets colors be used. -/
def isVivid (value? : String → Option String) : Bool :=
  match value? plainVariable with
  | none => true
  | some text => text.isEmpty

/-- The settings that are asked for, filled up from the environment. -/
def choose (value? : String → Option String) (level? format? : Option String) :
    Except SetupError Config :=
  let level := (level?.orElse fun _ ↦ levelOf? value?).getD defaultLevel
  let name := (format?.orElse fun _ ↦ value? formatVariable).getD Format.default.name
  match Format.ofName? name with
  | none => .error (.unknownFormat name)
  | some format => .ok ⟨filterOf level, format, isVivid value?⟩

/-- Sets a log up: the answer, and the settings that hold from then on. -/
def install (current? : Option Config) (chosen : Except SetupError Config) :
    Except SetupError Unit × Option Config :=
  match chosen, current? with
  | .error e, _ => (.error e, current?)
  | .ok _, some held => (.error .alreadySet, some held)
  | .ok c, none => (.ok (), some c)

/-- The text of a log under these settings. -/
def write (c : Config) (stamp : Stamp) (items : List Item) : String :=
  Layout.text c.format c.vivid stamp (c.filter.pass items)

end Config

/-- The notes among some items. -/
def notes (items : List Item) : List Item :=
  items.filter fun item ↦ match item with
    | .note _ => true
    | _ => false

/-- The text of a log; one that was never set up holds notes alone. -/
def write (config? : Option Config) (stamp : Stamp) (items : List Item) : String :=
  match config? with
  | none => Layout.text .compact false stamp (notes items)
  | some c => c.write stamp items

end FenceLint.Log
