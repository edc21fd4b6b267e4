import FenceLint.Disk.Basic
import FenceLint.Error

/-!
The Markdown files in a directory. The names of each directory are gone through in ascending order,
a directory's files in the place of its own name, and links are neither followed nor taken. What a
listed directory shows to be a file or a directory is taken for one.
-/

set_option autoImplicit false

namespace FenceLint.Targets

/-- The extensions of Markdown files, in lower case. -/
def markdownExtensions : List String := ["md", "markdown"]

/-- Whether a name is that of a Markdown file. -/
def isMarkdown (name : String) : Bool :=
  match Path.extension? name with
  | none => false
  | some ext => markdownExtensions.contains ext.toLower

/-- What each name contributes, in ascending order of the names. -/
def inOrder {α : Type} (groups : List (String × List α)) : List α :=
  (groups.mergeSort fun a b ↦ a.1 ≤ b.1).flatMap (·.2)

/-- What a scan meets: a Markdown file, as names from a directory above it, or a directory that
cannot be listed. -/
abbrev Met : Type := Except Disk.Unlisted (List String)

/-- What a directory contributes, if it can be listed. -/
def ifListed (disk : Disk) (dir : String) (inside : List Met) : List Met :=
  match disk.list dir with
  | .ok _ => inside
  | .error fault => [.error ⟨dir, fault⟩]

mutual

/-- What a scan meets in an entry of a directory. -/
def meetEntry (disk : Disk) (deep : Bool) (dir name : String) : Node → List Met
  | .file _ _ => if isMarkdown name then [.ok [name]] else []
  | .link _ => []
  | .folder entries =>
    let path := Path.join dir name
    if deep then
      (ifListed disk path (inOrder (meetEntries disk deep path entries))).map (·.map (name :: ·))
    else []

/-- What a scan meets in each of some entries of a directory. -/
def meetEntries (disk : Disk) (deep : Bool) (dir : String) :
    List (String × Node) → List (String × List Met)
  | [] => []
  | (name, node) :: rest => (name, meetEntry disk deep dir name node) :: meetEntries disk deep dir rest

end

/-- What a scan of a directory with these entries meets; with `deep` also in the directories in
it. -/
def met (disk : Disk) (deep : Bool) (dir : String) (entries : List (String × Node)) : List Met :=
  ifListed disk dir (inOrder (meetEntries disk deep dir entries))

/-- A directory and names below it as a path. -/
def pathBelow (dir : String) (names : List String) : String := names.foldl Path.join dir

/-- The Markdown files in a directory. The first directory that cannot be listed ends this. -/
def scan (disk : Disk) (dir : String) (deep : Bool) : Except Error (List String) :=
  match disk.find dir with
  | .ok (.folder entries) =>
    match (met disk deep dir entries).mapM id with
    | .error unlisted => .error (.unscannable dir unlisted.dir unlisted.fault)
    | .ok [] => .error (.noMatches s!"{dir}/*.md")
    | .ok files => .ok (files.map (pathBelow dir))
  | _ => .error (.missing dir)

end FenceLint.Targets
