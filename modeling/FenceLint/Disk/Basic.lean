import FenceLint.Disk.Path
import FenceLint.Fault

/-!
A file system: a tree of folders, files and symbolic links, a working directory, and what may not be
read or passed. A path is walked part by part; links are followed wherever they stand, at most
`linkLimit` of them, and every way of going wrong has its own fault.

There are no names but text, no special files such as pipes and devices, and no change while a
program runs. Whether a file may be run is a mark on it, and who runs it is not told apart.
-/

set_option autoImplicit false

namespace FenceLint

/-- What a name in a folder stands for. -/
inductive Node
  /-- A regular file; its contents are `none` when the bytes are no text. -/
  | file (text? : Option String) (executable : Bool)
  /-- A symbolic link, with the path it holds. -/
  | link (target : String)
  /-- A folder with its names. -/
  | folder (entries : List (String × Node))

namespace Node

/-- The names in a folder; nothing else has any. -/
def entries : Node → List (String × Node)
  | folder es => es
  | _ => []

/-- The node with a name in a folder. -/
def child? (node : Node) (name : String) : Option Node := node.entries.lookup name

/-- The node at the end of a row of names, links not followed. -/
def descend (node : Node) : List String → Option Node
  | [] => some node
  | name :: rest => (node.child? name).bind fun next ↦ next.descend rest

/-- Entries with one replaced or added at the end. -/
def setEntry (name : String) (node : Node) : List (String × Node) → List (String × Node)
  | [] => [(name, node)]
  | (other, old) :: rest =>
    if other = name then (name, node) :: rest else (other, old) :: setEntry name node rest

/-- The tree with a node put at the end of a row of names, folders made on the way. -/
def place (tree node : Node) : List String → Node
  | [] => node
  | name :: rest =>
    .folder (setEntry name (place ((tree.child? name).getD (.folder [])) node rest) tree.entries)

end Node

/-- A file system. Places are given by the names from the root. -/
structure Disk where
  root : Node
  /-- The working directory. -/
  workingDir : List String
  /-- Why the file at a place cannot be read, or the names of the folder there cannot be listed, if
  that is so. -/
  sealed? : List String → Option Fault
  /-- Why no path leads on from the folder at a place, if that is so. -/
  barred? : List String → Option Fault

namespace Disk

/-- A disk on which everything may be read and passed. -/
def unguarded (root : Node) (workingDir : List String) : Disk :=
  ⟨root, workingDir, fun _ ↦ none, fun _ ↦ none⟩

/-- The most links that one path may lead through. -/
def linkLimit : Nat := 40

/-- The longest name, in bytes. -/
def nameLimit : Nat := 255

/-- The longest path, in bytes. -/
def pathLimit : Nat := 4095

/-- The place where a path leads to: `here` are the names from the root so far, the last one first,
and `links` is the number of links that may still be followed. -/
def walk (d : Disk) (links : Nat) (here : List String) :
    List String → Except Fault (List String)
  | [] => .ok here
  | part :: rest =>
    match d.root.descend here.reverse with
    | some (.folder entries) =>
      if part = "" then walk d links here rest
      else match d.barred? here.reverse with
        | some fault => .error fault
        | none =>
          if part = "." then walk d links here rest
          else if part = ".." then walk d links here.tail rest
          else if nameLimit < part.utf8ByteSize then .error .nameTooLong
          else match entries.lookup part with
            | none => .error .absent
            | some (.link target) =>
              match links with
              | 0 => .error .linkLoop
              | left + 1 =>
                walk d left (if Path.isAbsolute target then [] else here)
                  (Path.parts target ++ rest)
            | some _ => walk d links (part :: here) rest
    | some _ => .error .notDirectory
    | none => .error .absent
termination_by parts => (links, parts.length)

/-- Where a path starts. -/
def origin (d : Disk) (path : String) : List String :=
  if Path.isAbsolute path then [] else d.workingDir.reverse

/-- The parts of a path, if it can be looked up at all. -/
def partsOf (path : String) : Except Fault (List String) :=
  if path.isEmpty then .error .absent
  else if path.toList.contains '\x00' then .error .nulInPath
  else if pathLimit < path.utf8ByteSize then .error .nameTooLong
  else .ok (Path.parts path)

/-- The place that a path leads to, links followed. -/
def locate (d : Disk) (path : String) : Except Fault (List String) := do
  let here ← d.walk linkLimit (d.origin path) (← partsOf path)
  pure here.reverse

/-- The node at a place. -/
def nodeAt (d : Disk) (place : List String) : Except Fault Node :=
  match d.root.descend place with
  | some node => .ok node
  | none => .error .absent

/-- The node that a path leads to, links followed. -/
def find (d : Disk) (path : String) : Except Fault Node := do d.nodeAt (← d.locate path)

/-- The node that a path leads to, if what is in it may be read. -/
def read (d : Disk) (path : String) : Except Fault Node := do
  let place ← d.locate path
  let node ← d.nodeAt place
  match d.sealed? place with
  | some fault => .error fault
  | none => pure node

/-- Whether a path leads anywhere. -/
def exists? (d : Disk) (path : String) : Bool := (d.find path).toBool

/-- Whether a path leads to a regular file. -/
def isFile (d : Disk) (path : String) : Bool :=
  match d.find path with
  | .ok (.file _ _) => true
  | _ => false

/-- Whether a path leads to a folder. -/
def isFolder (d : Disk) (path : String) : Bool :=
  match d.find path with
  | .ok (.folder _) => true
  | _ => false

/-- Whether a path leads to a file that may be run. -/
def isProgram (d : Disk) (path : String) : Bool :=
  match d.find path with
  | .ok (.file _ executable) => executable
  | _ => false

/-- Whether a path names a link, wherever that leads. -/
def isLink (d : Disk) (path : String) : Bool :=
  match (partsOf path).map List.reverse with
  | .ok (name :: before) =>
    match d.walk linkLimit (d.origin path) before.reverse with
    | .ok here =>
      match d.barred? here.reverse, d.root.descend (name :: here).reverse with
      | none, some (.link _) => true
      | _, _ => false
    | .error _ => false
  | _ => false

/-- The names in the folder that a path leads to, each with what it stands for. -/
def list (d : Disk) (path : String) : Except Fault (List (String × Node)) :=
  match d.read path with
  | .ok (.folder entries) => .ok entries
  | .ok _ => .error .notDirectory
  | .error fault => .error fault

/-- The text of the file that a path leads to. -/
def readText (d : Disk) (path : String) : Except Fault String :=
  match d.read path with
  | .ok (.file (some text) _) => .ok text
  | .ok (.file none _) => .error .notText
  | .ok _ => .error .isDirectory
  | .error fault => .error fault

/-- A directory that cannot be listed. -/
structure Unlisted where
  dir : String
  fault : Fault
  deriving DecidableEq, Repr

/-- The disk with another working directory, if the path leads to one. -/
def enter (d : Disk) (path : String) : Disk :=
  match d.walk linkLimit (d.origin path) (Path.parts path) with
  | .ok here => { d with workingDir := here.reverse }
  | .error _ => d

end Disk

end FenceLint
