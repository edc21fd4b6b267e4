/-!
The formats that a log can be written in.
-/

set_option autoImplicit false

namespace FenceLint.Log

/-- How log lines are laid out. -/
inductive Format
  /-- One line for each event. -/
  | compact
  /-- Several lines for each event. -/
  | pretty
  /-- One JSON object for each event. -/
  | json
  deriving DecidableEq, Repr

namespace Format

/-- The format unless another is asked for. -/
def default : Format := compact

/-- The name of a format. -/
def name : Format → String
  | compact => "compact" | pretty => "pretty" | json => "json"

/-- All formats. -/
def all : List Format := [compact, pretty, json]

/-- The names of the formats. -/
def names : List String := all.map name

/-- The format with a name in any mix of upper and lower case. No other letter becomes one of these
in lower case, so folding ASCII letters is enough. -/
def ofName? (text : String) : Option Format := all.find? fun f ↦ f.name = text.toLower

/-- What is said of a name that no format has. -/
def unknown (name : String) : String := s!"Unknown log format: {name}"

end Format

/-- The level of a log unless another is asked for. -/
def defaultLevel : String := "warn"

end FenceLint.Log
