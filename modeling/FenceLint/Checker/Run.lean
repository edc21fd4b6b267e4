import FenceLint.Checker.Basic
import FenceLint.Report.Collection

/-!
Checking texts, documents and lists of documents. Every block is kept if there is a place to keep
it, and validated whether that worked or not; a document that cannot be checked does not stop the
ones after it unless its error is fatal.
-/

set_option autoImplicit false

namespace FenceLint.Scene

variable {ω π : Type}

/-- Keeps a block if the checker has a place for it; a block that cannot be kept is worth a
warning. -/
def keepBlock (document : Nat) (source : String) (block : Block) :
    Act (Scene ω π) (Option String) := do
  match (← get).checker.artifacts with
  | none => pure none
  | some dir =>
    match ← onArea (dir.writeBlock document source block) with
    | .ok name => pure (some name)
    | .error e =>
      Act.log .warn Log.Target.checker "Block file not written"
        [("index", .count block.index), ("error", .shown e.message)]
      pure none

/-- Keeps and validates one block. -/
def checkBlock (b : Backend ω π) (document : Nat) (source : String) (block : Block) :
    Act (Scene ω π) (Except Error CheckedBlock) := do
  let fileName? ← keepBlock document source block
  match ← parser with
  | .error e => pure (.error e)
  | .ok p =>
    let verdict ← validate b p block.code
    if !verdict.isValid then
      Act.log .debug Log.Target.checker "Invalid block"
        [("index", .count block.index), ("line_start", .count block.lineStart)]
    pure (.ok ⟨block, verdict, fileName?⟩)

/-- Checks blocks one after the other and adds them to a report. -/
def checkBlocks (b : Backend ω π) (document : Nat) (source : String) :
    List Block → Report → Act (Scene ω π) (Except Error Report)
  | [], report => pure (.ok report)
  | block :: rest, report => do
    match ← checkBlock b document source block with
    | .error e => pure (.error e)
    | .ok checked => checkBlocks b document source rest (report.push checked)

/-- The number of the next document with blocks. -/
def nextDocument : Act (Scene ω π) Nat :=
  modifyGet fun s ↦ (s.checker.documents,
    { s with checker := { s.checker with documents := s.checker.documents + 1 } })

/-- Checks a text under the name of its source. A text without blocks needs no parser. -/
def checkText (b : Backend ω π) (source text : String) :
    Act (Scene ω π) (Except Error Report) :=
  Act.within ⟨.info, Log.Target.checker, "check_document",
      [("source_file", .quoted source)]⟩ do
    let blocks ← Fence.extraction (← get).checker.language text
    if blocks.isEmpty then
      Act.log .debug Log.Target.checker "No diagram blocks, skipping validation" []
      pure (.ok (.empty source))
    else
      let document ← nextDocument
      match ← checkBlocks b document source blocks (.empty source) with
      | .error e => pure (.error e)
      | .ok report =>
        Act.log .info Log.Target.checker "Document checked"
          [("total", .count report.totalBlocks), ("valid", .count report.validCount),
            ("invalid", .count report.invalidCount)]
        pure (.ok report)

/-- Reads and checks the document at a path. -/
def checkDocument (b : Backend ω π) (read : String → Except Fault String) (path : String) :
    Act (Scene ω π) (Except Error Report) :=
  match read path with
  | .error fault => pure (.error (.ofReading path fault))
  | .ok text => checkText b path text

/-- Checks documents in order, on top of what came before them. -/
def checkEach (b : Backend ω π) (read : String → Except Fault String) :
    List String → List Report → List FileFailure → Act (Scene ω π) (Except Error MultiReport)
  | [], files, failures => pure (.ok (.ofReports files failures))
  | path :: rest, files, failures => do
    match ← checkDocument b read path with
    | .ok report => checkEach b read rest (files ++ [report]) failures
    | .error e =>
      if e.isFatal then pure (.error e)
      else
        Act.log .warn Log.Target.checker "Could not check document"
          [("path", .shown path), ("error", .shown e.message)]
        checkEach b read rest files (failures ++ [⟨path, e.message⟩])

/-- Checks several documents. A document that cannot be checked is a failure among the results, and
a fatal error ends the run. -/
def checkDocuments (b : Backend ω π) (read : String → Except Fault String)
    (paths : List String) : Act (Scene ω π) (Except Error MultiReport) :=
  Act.within ⟨.info, Log.Target.checker, "check_documents", [("count", .count paths.length)]⟩
    (checkEach b read paths [] [])

end FenceLint.Scene
