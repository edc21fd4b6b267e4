import FenceLint.Disk.Basic

/-!
The surroundings that a run finds: the file system, the environment variables, and what programs
print when they are run. Nothing a run does changes them.
-/

set_option autoImplicit false

namespace FenceLint

/-- How a program that was run for its output ended. -/
structure Finished where
  /-- What it printed; `none` when the bytes are no text. -/
  output? : Option String
  succeeded : Bool
  deriving DecidableEq, Repr

/-- The surroundings of a run. -/
structure Site where
  disk : Disk
  /-- The environment variables and their values. -/
  environment : List (String × String)
  /-- Where this program itself is, as names from the root, if that is known. -/
  executable? : Option (List String)
  /-- What running a program with these arguments gives, unless it cannot be started. -/
  runs : String → List String → Option Finished
  /-- The working directory, as names from the root, if it can be told. -/
  workingDir? : Option (List String) := some disk.workingDir

namespace Site

/-- The value of an environment variable. -/
def value? (site : Site) (name : String) : Option String := site.environment.lookup name

/-- The directories that programs are looked for in. -/
def searchPath (site : Site) : List String :=
  match site.value? "PATH" with
  | none => []
  | some path => (Text.pieces ':' path.toList).map String.ofList

/-- The first program with a name on the search path; an empty entry of the path holds nothing. -/
def which? (site : Site) (name : String) : Option String :=
  let entries := site.searchPath.filter fun dir ↦ !dir.isEmpty
  (entries.map (Path.join · name)).find? site.disk.isProgram

end Site

end FenceLint
