import FenceLint.Act
import FenceLint.Error
import FenceLint.Log.Target
import FenceLint.Site
import FenceLint.Text.Blank

/-!
Finding Node.js and the packages that the engine needs. Strategies are tried in order; each one
proposes directories, and the first directory that holds every package wins, so an incomplete
install never hides a complete one that comes later.
-/

set_option autoImplicit false

namespace FenceLint.Engine

/-- The packages that must be there. -/
def requiredPackages : List String := ["mermaid", "jsdom"]

/-- The name of directories of packages. -/
def packagesName : String := "node_modules"

/-- A place to look for the packages. -/
inductive Strategy
  /-- A configured directory, or the directory of packages in it. -/
  | configured (dir : String)
  /-- The working directory and those above it. -/
  | workingDir
  /-- The directory of this program and those above it. -/
  | executable
  /-- Where npm keeps global packages. -/
  | globalRoot
  deriving DecidableEq, Repr

/-- Whether a directory holds every required package. -/
def hasPackages (disk : Disk) (dir : String) : Bool :=
  requiredPackages.all fun package ↦
    disk.isFile (Path.join (Path.join dir package) "package.json")

/-- The directories of packages in a directory and in those above it, the nearest first. The
directory is given by its names from the root. -/
def upwards (names : List String) : List String :=
  (List.range (names.length + 1)).map fun n ↦
    Path.join (Path.ofNames (names.take (names.length - n))) packagesName

/-- Where npm says that it keeps global packages. -/
def globalRoot? (site : Site) : Option String := do
  let npm ← site.which? "npm"
  let finished ← site.runs npm ["root", "-g"]
  let output ← if finished.succeeded then finished.output? else none
  let dir := Text.trimmed output
  if dir.isEmpty then none else some dir

namespace Strategy

/-- A strategy as messages name it. -/
def describe : Strategy → String
  | configured dir => s!"configured path {dir}"
  | workingDir => "working directory ancestors"
  | executable => "executable ancestors"
  | globalRoot => "global npm root"

/-- The directories that a strategy proposes, in order. -/
def candidates (site : Site) : Strategy → List String
  | configured dir => [dir, Path.join dir packagesName]
  | workingDir => (site.workingDir?.map upwards).getD []
  | executable => (site.executable?.map fun names ↦ upwards names.dropLast).getD []
  | globalRoot => (globalRoot? site).toList

/-- The first usable directory that a strategy proposes. -/
def resolve (site : Site) (s : Strategy) : Option String :=
  (s.candidates site).find? (hasPackages site.disk)

/-- The usual strategies, after a configured directory if there is one. -/
def usual (dir? : Option String) : List Strategy :=
  (dir?.map configured).toList ++ [workingDir, executable, globalRoot]

end Strategy

/-- What is said when no strategy finds the packages. -/
def notFoundMessage (tried : List Strategy) : String :=
  "could not find " ++ " and ".intercalate requiredPackages ++ " in any " ++ packagesName ++
    " (tried: " ++ ", ".intercalate (tried.map Strategy.describe) ++ ")"

/-- Tries strategies in order; `tried` are all of them, for the error. -/
def tryEach {σ : Type} (site : Site) (tried : List Strategy) :
    List Strategy → Act σ (Except Error String)
  | [] => pure (.error (.setup (notFoundMessage tried)))
  | s :: rest => do
    Act.log .trace Log.Target.resolver "Trying node_modules resolution strategy"
      [("strategy", .shown s.describe)]
    match s.resolve site with
    | some dir =>
      Act.log .debug Log.Target.resolver "Resolved node_modules"
        [("strategy", .shown s.describe), ("path", .shown dir)]
      pure (.ok dir)
    | none => tryEach site tried rest

/-- Finds a directory that holds the packages. -/
def locatePackages {σ : Type} (site : Site) (strategies : List Strategy) :
    Act σ (Except Error String) :=
  tryEach site strategies strategies

/-- Finds the Node.js binary. A configured one must be a file; otherwise the search path must hold a
program of that name. -/
def locateNode (site : Site) : Option String → Except Error String
  | some path =>
    if site.disk.isFile path then .ok path
    else .error (.setup s!"Node.js binary not found at {path}")
  | none =>
    match site.which? "node" with
    | some path => .ok path
    | none => .error (.setup "Node.js is not on PATH (cannot find binary path)")

end FenceLint.Engine
