import FenceLint.Disk.Basic
import FenceLint.Glob.Pattern

/-!
The paths that a glob pattern stands for. The search goes from directory to directory, names in
ascending order, and follows links; what fits behind a directory comes before what lies deeper
inside it. Paths are built from the names that were met and the literal parts of the pattern. What
a listed directory shows to be a directory counts as one, so the search may come to directories that
it cannot list, and it tells of them where it meets them.
-/

set_option autoImplicit false

namespace FenceLint.Glob

/-- A pattern that has been read. -/
structure Pattern where
  absolute : Bool
  components : List Component
  /-- Only directories fit, because the pattern ends with a slash. -/
  onlyFolders : Bool
  deriving DecidableEq, Repr

/-- The components of a pattern between its slashes; a slash at the end ends the last one. -/
def componentsOf (cs : List Char) : List (List Char) :=
  let parts := Text.pieces '/' cs
  if parts.getLast? = some [] then parts.dropLast else parts

/-- Reads a pattern. -/
def Pattern.parse (text : String) : Except PatternError Pattern := do
  let cs := text.toList
  let _whole ← tokens true 0 cs
  let absolute := Path.isAbsolute text
  let parts ← (componentsOf (if absolute then cs.tail else cs)).mapM fun part ↦
    (tokens true 0 part).map Component.ofTokens
  pure ⟨absolute, if absolute && cs.tail.isEmpty then [.literal ""] else parts,
    Path.endsWithSlash text⟩

/-- What the search still has to look at. -/
inductive Pending
  /-- A path that fits already. -/
  | fit (path : String)
  /-- A path whose name is to be held against the first of these components, and whether it is that
  of a directory. -/
  | look (path name : String) (folder : Bool) (components : List Component)
  /-- A directory that cannot be listed. -/
  | stuck (unlisted : Disk.Unlisted)

/-- The directory that a relative search starts in. -/
def here : String := "."

/-- Whether a path is the directory that a relative search starts in, however it is written. -/
def isHere (dir : String) : Bool := Path.components dir = [here]

/-- A path below a directory; where the search starts a name stands alone. -/
def below (dir name : String) : String := if isHere dir then name else Path.join dir name

/-- Special names, the later one first. -/
def specialNames : List String := ["..", "."]

/-- Whether a component asks for special names, which it does by starting with a dot. -/
def asksSpecial : Component → Bool
  | .fitting (.char '.' :: _) => true
  | _ => false

/-- Whether an entry of a directory is taken for a directory. Only of a link this is looked up. -/
def showsFolder (disk : Disk) (path : String) : Node → Bool
  | .file _ _ => false
  | .link _ => disk.isFolder path
  | .folder _ => true

/-- What an entry of a directory is to be held against. -/
def lookAt (disk : Disk) (dir : String) (components : List Component) (entry : String × Node) :
    Pending :=
  let path := below dir entry.1
  .look path entry.1 (showsFolder disk path entry.2) components

/-- What to look at for components behind a path, if this is that of a directory. -/
def pending (disk : Disk) (dir : String) (folder : Bool) : List Component → List Pending
  | [] => [.fit dir]
  | .literal name :: rest =>
    let next := below dir name
    let there := if specialNames.contains name then folder
      else disk.exists? next || disk.isLink next
    if there then pending disk next (disk.isFolder next) rest else []
  | c :: rest =>
    if folder then
      match disk.list dir with
      | .error fault => [.stuck ⟨dir, fault⟩]
      | .ok entries =>
        let special := if asksSpecial c then specialNames.filter (c.fitsName ·) else []
        let behind (name : String) :=
          let next := Path.join dir name
          pending disk next (disk.isFolder next) rest
        special.flatMap behind ++
          (entries.mergeSort fun a b ↦ a.1 ≤ b.1).map (lookAt disk dir (c :: rest))
    else []

/-- Components behind a run of deep ones. -/
def skipDeep : List Component → List Component
  | .deep :: rest => skipDeep rest
  | cs => cs

/-- What a search meets: a path that fits, or a directory that it cannot list. -/
abbrev Met : Type := Except Disk.Unlisted String

/-- What comes of a path whose name is held against the first of some components, by what lies behind
it for the others. -/
def against (onlyFolders : Bool) (path name : String) (folder : Bool)
    (behind : List Component → List Met) : List Component → List Met
  | [] => []
  | [c] => if c.fitsName name && (!onlyFolders || folder) then [.ok path] else []
  | c :: rest => if c.fitsName name then behind rest else []

/-- What comes of something that is looked at: `depth` bounds how far the search goes below it. -/
def search (disk : Disk) (onlyFolders : Bool) (depth : Nat) (p : Pending) : List Met :=
  match depth, p with
  | _, .stuck unlisted => [.error unlisted]
  | _, .fit path => if onlyFolders && !disk.isFolder path then [] else [.ok path]
  | 0, .look _ _ _ _ => []
  | depth + 1, .look path name folder components =>
    let behind (cs : List Component) : List Met :=
      (pending disk path folder cs).flatMap (search disk onlyFolders depth)
    let held := against onlyFolders path name folder behind
    match components with
    | .deep :: rest =>
      let rest := skipDeep rest
      let deeper := if folder then behind (.deep :: rest) else []
      if rest.isEmpty then (if folder then .ok path :: deeper else [])
      else held rest ++ deeper
    | cs => held cs

/-- How deep a search can go: no path that leads anywhere has more names than characters. -/
def depthLimit : Nat := Disk.pathLimit + 1

namespace Pattern

/-- Where the search for a pattern starts. -/
def start (p : Pattern) : String := if p.absolute then "/" else here

/-- What the search for a pattern meets, in order. -/
def met (disk : Disk) (p : Pattern) : List Met :=
  if p.components.isEmpty then []
  else
    (pending disk p.start (disk.isFolder p.start) p.components).flatMap
      (search disk p.onlyFolders depthLimit)

/-- The paths that a pattern stands for, in the order in which they are met, or the first directory
that would have to be listed for them and cannot be. -/
def paths (disk : Disk) (p : Pattern) : Except Disk.Unlisted (List String) :=
  (p.met disk).mapM id

end Pattern

end FenceLint.Glob
