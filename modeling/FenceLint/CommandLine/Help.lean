import FenceLint.CommandLine.Switch

/-!
The help of the command line, laid out from the table of switches: the summaries stand in a column
two blanks behind the longest switch.
-/

set_option autoImplicit false

namespace FenceLint.CommandLine

/-- The name of the program. -/
def programName : String := "mermaid-check"

/-- The version of the program. -/
def programVersion : String := "0.1.0"

/-- How the program is called. -/
def usageLine : String := "Usage: " ++ programName ++ " [OPTIONS] [INPUTS]..."

/-- The part of a help line in front of the summary. -/
def helpHead (s : Switch) : String :=
  let letter := match s.short? with
    | some c => "-" ++ String.singleton c ++ ", "
    | none => "    "
  "  " ++ letter ++ s.shown

/-- The part of a help line from the summary on. -/
def helpTail (s : Switch) : String :=
  let usual := match s.default? with
    | some value => " [default: " ++ value ++ "]"
    | none => ""
  let choices := if s.choices.isEmpty then "" else
    " [possible values: " ++ ", ".intercalate s.choices ++ "]"
  s.summary ++ usual ++ choices

/-- The column of the summaries. -/
def helpColumn : Nat :=
  (Switch.all.map fun s ↦ (helpHead s).length + 2).foldl max 0

/-- The help line of a switch. -/
def helpLine (s : Switch) : String :=
  let head := helpHead s
  head ++ "".pushn ' ' (helpColumn - head.length) ++ helpTail s

/-- The lines of the help. -/
def helpLines : List String :=
  ["Validate the syntax of Mermaid diagrams in Markdown documents", "", usageLine, "",
    "Arguments:", "  [INPUTS]...  Markdown files or glob patterns (e.g. \"docs/**/*.md\")", "",
    "Options:"] ++ Switch.all.map helpLine

end FenceLint.CommandLine
