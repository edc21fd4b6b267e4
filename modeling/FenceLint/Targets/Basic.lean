import FenceLint.Glob.Expand
import FenceLint.Targets.Scan

/-!
From inputs to documents. The inputs are gone through in order, and each puts its files behind those
of the inputs before it: a pattern the files it matches, at least one, and any other text itself,
which must exist. The first input that fails ends this, with its error.
-/

set_option autoImplicit false

namespace FenceLint

/-- The documents of a run. -/
structure Targets where
  documents : List String
  /-- One path was asked for by name. -/
  single : Bool
  deriving DecidableEq, Repr

namespace Targets

/-- The characters that make an input a pattern. -/
def patternChars : List Char := ['*', '?', '[']

/-- Whether an input is a pattern. -/
def isPattern (input : String) : Bool := input.toList.any patternChars.contains

/-- The files that are there already, and behind them what one more input stands for: the files that
a pattern matches, which must be some, or the path itself, which must exist. A directory that cannot
be listed on the way to the files of a pattern ends this, even if others match. -/
def gather (disk : Disk) (files : List String) (input : String) : Except Error (List String) :=
  if isPattern input then
    match Glob.Pattern.parse input with
    | .error e => .error (.usage s!"invalid glob pattern '{input}': {e.message}")
    | .ok p =>
      match p.paths disk with
      | .error unlisted => .error (.unsearchable input unlisted.dir unlisted.fault)
      | .ok paths =>
        let more := files ++ paths.filter disk.isFile
        if more.length = files.length then .error (.noMatches input) else .ok more
  else if disk.exists? input then .ok (files ++ [input])
  else .error (.missing input)

/-- What inputs stand for, one after the other. -/
def expand (disk : Disk) (inputs : List String) : Except Error (List String) :=
  inputs.foldlM (gather disk) []

/-- The documents of inputs and of a directory, if one is given. -/
def resolve (disk : Disk) (inputs : List String) (dir? : Option String) (deep : Bool) :
    Except Error Targets := do
  let named ← expand disk inputs
  let scanned ← match dir? with
    | none => pure []
    | some dir => scan disk dir deep
  let documents := named ++ scanned
  if documents.isEmpty then .error (.usage "no input documents given")
  else
    let single := match inputs with
      | [input] => dir?.isNone && !isPattern input
      | _ => false
    pure ⟨documents, single⟩

end Targets

end FenceLint
