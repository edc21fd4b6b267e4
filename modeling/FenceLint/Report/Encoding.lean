import FenceLint.Json.Printer
import FenceLint.Report.Collection

/-!
Reports as JSON. A checked block is one flat object of its block, its verdict and, when there is
one, its file; the totals of a collection stand beside its files and failures. The code of a block
is not part of its record.
-/

set_option autoImplicit false

namespace FenceLint

/-- The members that describe a block. -/
def Block.members (b : Block) : List (String × Json) :=
  [("index", .nat b.index), ("lineStart", .nat b.lineStart), ("lineEnd", .nat b.lineEnd),
    ("diagramType", .text b.diagramType)]

/-- A block as JSON. -/
def Block.toJson (b : Block) : Json := .record b.members

/-- The members that describe a verdict. -/
def Verdict.members (v : Verdict) : List (String × Json) :=
  [("valid", .bool v.isValid), ("error", .textOrNull v.error?), ("elapsedTime", .float v.elapsed)]

/-- A verdict as JSON. -/
def Verdict.toJson (v : Verdict) : Json := .record v.members

/-- A checked block as JSON. -/
def CheckedBlock.toJson (c : CheckedBlock) : Json :=
  .record (c.block.members ++ c.verdict.members ++
    (c.fileName?.map fun name ↦ ("fileName", Json.text name)).toList)

/-- A report as JSON. -/
def Report.toJson (r : Report) : Json :=
  .record
    [("sourceFile", .text r.sourceFile), ("totalBlocks", .nat r.totalBlocks),
      ("validCount", .nat r.validCount), ("invalidCount", .nat r.invalidCount),
      ("blocks", .array (r.blocks.map CheckedBlock.toJson)), ("totalTime", .float r.totalTime)]

/-- A failure as JSON. -/
def FileFailure.toJson (f : FileFailure) : Json :=
  .record [("sourceFile", .text f.sourceFile), ("error", .text f.error)]

/-- The members that hold totals. -/
def Summary.members (s : Summary) : List (String × Json) :=
  [("filesChecked", .nat s.filesChecked), ("totalDiagrams", .nat s.totalDiagrams),
    ("totalValid", .nat s.totalValid), ("totalInvalid", .nat s.totalInvalid),
    ("filesWithErrors", .nat s.filesWithErrors), ("totalTime", .float s.totalTime)]

/-- A report on several documents as JSON. -/
def MultiReport.toJson (m : MultiReport) : Json :=
  .record
    ([("files", .array (m.files.map Report.toJson)),
      ("failures", .array (m.failures.map FileFailure.toJson))] ++ m.summary.members)

end FenceLint
