import FenceLint.Act
import FenceLint.Artifact.Name
import FenceLint.Block
import FenceLint.Error
import FenceLint.Log.Target
import FenceLint.Text.Quoted

/-!
The place for temporary directories, and the directory in which a run keeps its blocks. The area
remembers every directory made in it; one that was removed stays as a gap, so numbers are never
used twice. Any write may meet a fault, and one that does leaves no file.
-/

set_option autoImplicit false

namespace FenceLint.Artifact

/-- The place for temporary directories. -/
structure Area where
  /-- Where the directories are made. -/
  root : String
  /-- What sets the name of each directory apart. -/
  suffix : Nat → String
  /-- The fault that stops a directory from being made, if there is one. -/
  refusal? : Option Fault
  /-- The fault that the write with this number meets, if there is one. -/
  fault? : Nat → Option Fault
  /-- Writes tried so far. -/
  writes : Nat
  /-- The directories by number, each with the contents of its files; `none` once removed. -/
  folders : List (Option (List (String × String)))

namespace Area

/-- An area in good order with nothing in it. -/
def fresh (root : String) (suffix : Nat → String) : Area :=
  ⟨root, suffix, none, fun _ ↦ none, 0, []⟩

/-- The files of a directory, none if it is gone. -/
def folder? (area : Area) (id : Nat) : Option (List (String × String)) :=
  (area.folders[id]?).join

/-- The area without a directory. -/
def remove (area : Area) (id : Nat) : Area := { area with folders := area.folders.set id none }

/-- Contents with a file written, in the place of one of the same name. -/
def put (name code : String) (files : List (String × String)) : List (String × String) :=
  if files.any (·.1 == name) then files.map fun f ↦ if f.1 = name then (name, code) else f
  else files ++ [(name, code)]

/-- The longest name a file may have, in bytes. -/
def nameLimit : Nat := 255

/-- Tries to write a file. -/
def write (area : Area) (id : Nat) (name code : String) : Except Fault Unit × Area :=
  let tried := { area with writes := area.writes + 1 }
  match area.fault? area.writes, area.folder? id with
  | some fault, _ => (.error fault, tried)
  | none, none => (.error .absent, tried)
  | none, some files =>
    if nameLimit < name.utf8ByteSize then (.error .nameTooLong, tried)
    else (.ok (), { tried with folders := tried.folders.set id (some (put name code files)) })

end Area

/-- The directory in which a run keeps its blocks. -/
structure Dir where
  id : Nat
  path : String
  deriving DecidableEq, Repr

namespace Dir

/-- Every directory's name starts with this. -/
def namePrefix : String := "mermaid-check-"

/-- Makes a directory. -/
def create : Act Area (Except Error Dir) := do
  let area ← get
  match area.refusal? with
  | some fault => pure (.error (.unreadable area.root fault))
  | none =>
    let id := area.folders.length
    let path := area.root ++ "/" ++ namePrefix ++ area.suffix id
    set { area with folders := area.folders ++ [some []] }
    Act.log .debug Log.Target.artifacts "Created artifact directory" [("path", .shown path)]
    pure (.ok ⟨id, path⟩)

/-- Keeps a block and gives the name of its file. -/
def writeBlock (dir : Dir) (document : Nat) (source : String) (block : Block) :
    Act Area (Except Error String) := do
  let name := fileName document source block.index
  match ← modifyGet fun area : Area ↦ area.write dir.id name block.code with
  | .ok () => pure (.ok name)
  | .error fault => pure (.error (.unwritable (dir.path ++ "/" ++ name) fault))

/-- Removes the directory without a word. -/
def discard (dir : Dir) : Act Area Unit := modify fun area ↦ area.remove dir.id

/-- Removes the directory; that it was gone already is worth a warning and no more. -/
def close (dir : Dir) : Act Area Unit := do
  let area ← get
  match area.folder? dir.id with
  | some _ => dir.discard
  | none =>
    let error := Fault.absent.text ++ " at path " ++ Text.quoted dir.path
    Act.log .warn Log.Target.artifacts "Failed to remove artifact directory"
      [("path", .shown dir.path), ("error", .shown error)]

end Dir

end FenceLint.Artifact
