import FenceLint.CommandLine.Run

/-!
The program itself: it puts the files that the command line names on a disk, runs, prints, and
writes the block files that are to be kept. It starts no processes, so a document with blocks ends
in an error of setup.
-/

set_option autoImplicit false

namespace FenceLint.Program

/-- The names that a path leads through, from the root. -/
def namesOf (workingDir : List String) (path : String) : List String :=
  (Path.parts path).foldl
    (fun names part ↦
      if part = "" || part = "." then names
      else if part = ".." then names.dropLast
      else names ++ [part])
    (if Path.isAbsolute path then [] else workingDir)

/-- The node at a path, if there is one. -/
def load (path : String) : IO (Option Node) := do
  try
    let bytes ← IO.FS.readBinFile path
    pure (some (.file (String.fromUTF8? bytes) false))
  catch
    | .inappropriateType .. => pure (some (.folder []))
    | _ => pure none

/-- The environment variables that a run looks at. -/
def variableNames : List String :=
  Log.levelVariables ++
    [Log.formatVariable, Log.plainVariable, Engine.nodeVariable, Engine.packagesVariable]

/-- What is found of the files with these paths. -/
def loadSite (paths : List String) : IO Site := do
  let workingDir := namesOf [] ((← IO.getEnv "PWD").getD "/")
  let mut root := (Node.folder []).place (.folder []) workingDir
  for path in paths do
    if let some node ← load path then
      root := root.place node (namesOf workingDir path)
  let mut environment := []
  for name in variableNames do
    if let some value ← IO.getEnv name then
      environment := (name, value) :: environment
  pure {
    disk := .unguarded root workingDir
    environment
    executable? := none
    runs := fun _ _ ↦ none }

/-- Writes the directories that are still there. -/
def save (area : Artifact.Area) : IO Unit := do
  for (folder?, id) in area.folders.zipIdx do
    if let some files := folder? then
      let path := area.root ++ "/" ++ Artifact.Dir.namePrefix ++ area.suffix id
      IO.FS.createDirAll path
      for (name, code) in files do
        IO.FS.writeFile (path ++ "/" ++ name) code

end FenceLint.Program

open FenceLint in
/-- Runs the program with its arguments and gives its exit status. -/
def main (arguments : List String) : IO UInt32 := do
  let paths := (CommandLine.Options.parse arguments).toOption.elim [] (·.inputs)
  let site ← Program.loadSite paths
  let number ← IO.rand 0 999999
  let area := Artifact.Area.fresh ((← IO.getEnv "TMPDIR").getD "/tmp") fun id ↦ s!"{number}-{id}"
  let machine := Engine.Machine.fresh "" (fun _ _ ↦ .error .absent) fun _ ↦ .zero
  let r := (CommandLine.execute site arguments).run (area, machine)
  let clock ← IO.monoMsNow
  let stamp : Log.Stamp := ⟨s!"{clock}ms", CommandLine.programName, 0⟩
  Program.save r.state.1
  IO.eprint (Log.write r.value.log? stamp r.log)
  IO.print r.value.output
  pure (UInt32.ofNat r.value.exitCode)
