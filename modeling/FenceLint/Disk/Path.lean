import FenceLint.Text.Pieces

/-!
Paths as text. A path is absolute when it starts with a slash; joining keeps the text of both sides
and puts one slash between them where none is.
-/

set_option autoImplicit false

namespace FenceLint.Path

/-- The parts of a path between its slashes, empty ones included. -/
def parts (path : String) : List String :=
  (Text.pieces '/' path.toList).map String.ofList

/-- Whether a part of a path is a component wherever it stands. -/
def counts (part : String) : Bool := part != "" && part != "."

/-- The components of a path: its first part, which is empty for an absolute path, and of the other
parts all but empty ones and single dots. -/
def components (path : String) : List String :=
  match parts path with
  | [] => []
  | first :: rest => first :: rest.filter counts

/-- Whether a path starts at the root. -/
def isAbsolute (path : String) : Bool := path.toList.head? = some '/'

/-- Whether a path ends with a slash. -/
def endsWithSlash (path : String) : Bool := path.toList.getLast? = some '/'

/-- A path below a directory; an absolute path stands for itself. -/
def join (dir path : String) : String :=
  if isAbsolute path then path
  else if dir.isEmpty || endsWithSlash dir then dir ++ path
  else dir ++ "/" ++ path

/-- The absolute path with these names from the root. -/
def ofNames (names : List String) : String :=
  if names.isEmpty then "/" else String.join (names.map ("/" ++ ·))

/-- The part of a name after its last dot, unless the name has no dot or only one in front. -/
def extension? (name : String) : Option String :=
  let reversed := name.toList.reverse
  match reversed.dropWhile (· != '.') with
  | [] => none
  | _dot :: before =>
    if before = [] || name = ".." then none
    else some (String.ofList (reversed.takeWhile (· != '.')).reverse)

end FenceLint.Path
