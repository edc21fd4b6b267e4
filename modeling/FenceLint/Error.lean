import FenceLint.Fault
import FenceLint.Outcome

/-!
Errors of the check itself. A diagram with a syntax error is none of these: it is the verdict on
its block. Errors of usage and of setup end a whole run, the others only the document they concern.
-/

set_option autoImplicit false

namespace FenceLint

/-- Why a document, or a whole run, could not be checked. -/
inductive Error
  | usage (message : String)
  /-- An input that does not exist. -/
  | missing (path : String)
  /-- A pattern that matches no document. -/
  | noMatches (pattern : String)
  /-- An input that exists and cannot be read. -/
  | unreadable (path : String) (fault : Fault)
  /-- A block file that cannot be written. -/
  | unwritable (path : String) (fault : Fault)
  /-- A directory that has to be listed to find what a pattern matches, and cannot be. -/
  | unsearchable (pattern : String) (dir : String) (fault : Fault)
  /-- A directory that has to be listed to find the documents of another one, and cannot be. -/
  | unscannable (top : String) (dir : String) (fault : Fault)
  /-- The diagram parser cannot be started. -/
  | setup (message : String)
  deriving DecidableEq, Repr

namespace Error

/-- What to do about a parser that cannot be started. -/
def installHint : String :=
  "install the parser with \x60npm install mermaid jsdom\x60, or point " ++
    "MERMAID_CHECK_NODE_MODULES at a node_modules directory that contains both"

/-- The error of reading `path`: an input that is not found is missing, any other fault makes it
unreadable. -/
def ofReading (path : String) (fault : Fault) : Error :=
  if fault.kind = .notFound then missing path else unreadable path fault

/-- What an error says. -/
def message : Error → String
  | usage text => s!"Usage error: {text}"
  | missing path => s!"Input not found: {path}"
  | noMatches pattern => s!"No documents matched: {pattern}"
  | unreadable path fault => s!"Failed to read '{path}': {fault.text}"
  | unwritable path fault => s!"Failed to write block file '{path}': {fault.text}"
  | unsearchable pattern _ _ => s!"Failed to read glob match for: {pattern}"
  | unscannable top _ _ => s!"Failed to scan {top}"
  | setup text => s!"Could not initialize the Mermaid parser: {text}; {installHint}"

/-- The fault that an error of a file goes back to, if it is one. -/
def cause? : Error → Option Fault
  | unreadable _ fault => some fault
  | unwritable _ fault => some fault
  | _ => none

/-- Whether the whole run ends here. -/
def isFatal : Error → Bool
  | usage _ => true
  | setup _ => true
  | _ => false

/-- However it came about, the check could not be carried out. -/
def outcome (_ : Error) : Outcome := .unable

/-- What an error goes back to, the nearest cause first. -/
def causes (e : Error) : List String :=
  match e with
  | unsearchable _ dir fault =>
    [s!"attempting to read \x60{dir}\x60 resulted in an error: {fault.text}"]
  | unscannable _ dir fault => [s!"IO error for operation on {dir}: {fault.text}", fault.text]
  | _ => (e.cause?.map Fault.text).toList

/-- An error followed by its causes. -/
def chain (e : Error) : String := ": ".intercalate (e.message :: e.causes)

end Error

end FenceLint
