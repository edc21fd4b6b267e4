import FenceLint.Json.Printer
import FenceLint.Log.Format
import FenceLint.Log.Record
import FenceLint.Text.Quoted

/-!
Log items as text. The compact layout writes a line for each event and nothing where a span begins
or ends; the pretty layout, with several lines for each event, and the JSON layout, with one object
for each, also write when a span is entered and left. Notes are lines of their own in all of them.
Color is a matter of the first two alone.
-/

set_option autoImplicit false

namespace FenceLint.Log

/-- When and where log lines say that they were written. -/
structure Stamp where
  time : String
  file : String
  line : Nat
  deriving DecidableEq, Repr

/-- An event and the spans it is written with, the innermost first. -/
structure Entry where
  event : Event
  /-- The spans that the event belongs to. -/
  home : List Span
  /-- The spans that are open when it is written. -/
  around : List Span
  deriving DecidableEq, Repr

namespace Layout

/-- A text in a style, if styles are in use. -/
def styled (vivid : Bool) (parameters text : String) : String :=
  if vivid then "\x1b[" ++ parameters ++ "m" ++ text ++ "\x1b[0m" else text

/-- A value as people read it. -/
def valueText : Value → String
  | .count n => String.ofList (Decimal.chars n)
  | .flag true => "true"
  | .flag false => "false"
  | .shown text => text
  | .quoted text => Text.quoted text

/-- The color of a level, as a parameter of a control sequence. -/
def color : Level → String
  | .trace => "35" | .debug => "34" | .info => "32" | .warn => "33" | .error => "31"

/-- The time and the level of an event, with a blank behind each. -/
def opening (vivid : Bool) (stamp : Stamp) (level : Level) : String :=
  let name := level.shout
  let padded := "".pushn ' ' (5 - name.length) ++ name
  styled vivid "2" stamp.time ++ " " ++ styled vivid (color level) padded ++ " "

/-! ### Compact -/

/-- Fields on one line. -/
def compactFields (vivid : Bool) (fields : List (String × Value)) : String :=
  " ".intercalate (fields.map fun (name, value) ↦
    styled vivid "3" name ++ styled vivid "2" "=" ++ valueText value)

/-- A span in front of an event. -/
def compactSpan (vivid : Bool) (s : Span) : String :=
  let fields := if s.fields.isEmpty then "" else
    styled vivid "1" "\x7b" ++ compactFields vivid s.fields ++ styled vivid "1" "\x7d"
  styled vivid "1" s.name ++ fields ++ styled vivid "2" ":"

/-- An event on one line, behind its spans from the outermost on. -/
def compact (vivid : Bool) (stamp : Stamp) (e : Entry) : String :=
  let spans := String.join (e.home.reverse.map (compactSpan vivid))
  let fields := if e.event.fields.isEmpty then "" else " " ++ compactFields vivid e.event.fields
  opening vivid stamp e.event.level ++ spans ++ (if e.home.isEmpty then "" else " ") ++
    e.event.message ++ fields ++ "\n"

/-! ### Pretty -/

/-- A bold text inside a style, which goes on behind it. -/
def bold (vivid : Bool) (style text : String) : String :=
  if vivid then
    if style.isEmpty then styled true "1" text
    else styled true ("1;" ++ style) text ++ "\x1b[" ++ style ++ "m"
  else text

/-- Fields inside a style. -/
def prettyFields (vivid : Bool) (style : String) (fields : List (String × Value)) : String :=
  ", ".intercalate (fields.map fun (name, value) ↦
    bold vivid style name ++ ": " ++ valueText value)

/-- The line of a span. -/
def prettySpan (vivid : Bool) (s : Span) : String :=
  let fields := if s.fields.isEmpty then "" else
    " " ++ styled vivid "2;3" "with" ++ " " ++ prettyFields vivid "" s.fields
  "    " ++ styled vivid "2;3" "in" ++ " " ++ s.target ++ "::" ++ bold vivid "" s.name ++ fields ++
    "\n"

/-- An event on several lines: what happened, where it is written in the program, its spans from the
innermost on, and an empty line. -/
def pretty (vivid : Bool) (stamp : Stamp) (e : Entry) : String :=
  let style := color e.event.level
  let fields := if e.event.fields.isEmpty then "" else
    ", " ++ prettyFields vivid style e.event.fields
  let message := (if vivid then "\x1b[" ++ style ++ "m" else "") ++ e.event.message ++ fields
  let place := s!"{stamp.file}:{stamp.line}"
  "  " ++ opening vivid stamp e.event.level ++ bold vivid style e.event.target ++ ": " ++ message ++
    (if vivid then "\x1b[0m" else "") ++ "\n    " ++ styled vivid "2;3" "at" ++ " " ++ place ++
    "\n" ++ String.join (e.home.map (prettySpan vivid)) ++ "\n"

/-! ### JSON -/

/-- A value as JSON. -/
def valueJson : Value → Json
  | .count n => .nat n
  | .flag b => .bool b
  | .shown text => .text text
  | .quoted text => .text text

/-- Fields as members. -/
def members (fields : List (String × Value)) : List (String × Json) :=
  fields.map fun (name, value) ↦ (name, valueJson value)

/-- A span as an object, its name behind its fields. -/
def spanJson (s : Span) : Json := .record (members s.fields ++ [("name", .text s.name)])

/-- An event as an object. Its innermost span and the open spans from the outermost on are left out
when it belongs to none. -/
def entryJson (stamp : Stamp) (e : Entry) : Json :=
  let spans := match e.home with
    | [] => []
    | innermost :: _ =>
      [("span", spanJson innermost), ("spans", .array (e.around.reverse.map spanJson))]
  .record
    ([("timestamp", .text stamp.time), ("level", .text e.event.level.shout),
      ("fields", .record (("message", .text e.event.message) :: members e.event.fields)),
      ("target", .text e.event.target), ("filename", .text stamp.file),
      ("line_number", .nat stamp.line)] ++ spans)

/-- An event in a layout. -/
def entry (format : Format) (vivid : Bool) (stamp : Stamp) (e : Entry) : String :=
  match format with
  | .compact => compact vivid stamp e
  | .pretty => pretty vivid stamp e
  | .json => (entryJson stamp e).compact ++ "\n"

/-- What is written where a span begins or ends. -/
def boundary (format : Format) (vivid : Bool) (stamp : Stamp) (word : String) (s : Span)
    (home around : List Span) : String :=
  match format with
  | .compact => ""
  | _ => entry format vivid stamp ⟨⟨s.level, s.target, word, []⟩, home, around⟩

/-- The text of items inside some spans, the innermost first. -/
def textFrom (format : Format) (vivid : Bool) (stamp : Stamp) : List Span → List Item → String
  | _, [] => ""
  | around, .event e :: rest =>
    entry format vivid stamp ⟨e, around, around⟩ ++ textFrom format vivid stamp around rest
  | around, .enter s :: rest =>
    boundary format vivid stamp "enter" s (s :: around) (s :: around) ++
      textFrom format vivid stamp (s :: around) rest
  | around, .leave s :: rest =>
    boundary format vivid stamp "exit" s around around.tail ++
      textFrom format vivid stamp around.tail rest
  | around, .note line :: rest => line ++ "\n" ++ textFrom format vivid stamp around rest

/-- The text of a log. -/
def text (format : Format) (vivid : Bool) (stamp : Stamp) (items : List Item) : String :=
  textFrom format vivid stamp [] items

end Layout

end FenceLint.Log
