import FenceLint.Block
import FenceLint.Outcome
import FenceLint.Verdict

/-!
The report on one document. A report grows block by block and keeps running totals, so that the
time is added up in the order of the blocks; `ofBlocks` is the report after a whole list.
-/

set_option autoImplicit false

namespace FenceLint

/-- A block together with the verdict on it. -/
structure CheckedBlock where
  block : Block
  verdict : Verdict
  /-- The file that the block was written to, if it was. -/
  fileName? : Option String

namespace CheckedBlock

/-- Whether the block is valid. -/
def isValid (c : CheckedBlock) : Bool := c.verdict.isValid

end CheckedBlock

/-- What checking one document came to. -/
structure Report where
  sourceFile : String
  totalBlocks : Nat
  validCount : Nat
  invalidCount : Nat
  /-- Checked blocks in the order of the document. -/
  blocks : List CheckedBlock
  /-- Time that all checks took, in milliseconds. -/
  totalTime : Float

namespace Report

/-- The report before any block. -/
def empty (sourceFile : String) : Report := ⟨sourceFile, 0, 0, 0, [], 0.0⟩

/-- The report with one more block. -/
def push (r : Report) (c : CheckedBlock) : Report where
  sourceFile := r.sourceFile
  totalBlocks := r.totalBlocks + 1
  validCount := if c.isValid then r.validCount + 1 else r.validCount
  invalidCount := if c.isValid then r.invalidCount else r.invalidCount + 1
  blocks := r.blocks ++ [c]
  totalTime := r.totalTime + c.verdict.elapsed

/-- The report on a list of blocks. -/
def ofBlocks (sourceFile : String) (blocks : List CheckedBlock) : Report :=
  blocks.foldl push (empty sourceFile)

/-- The blocks that are invalid. -/
def invalidBlocks (r : Report) : List CheckedBlock := r.blocks.filter fun c ↦ !c.isValid

/-- A document passes when no block of it is invalid. -/
def passed (r : Report) : Bool := r.invalidCount == 0

/-- How the check of this document ended. -/
def outcome (r : Report) : Outcome := if r.passed then .passed else .invalid

end Report

end FenceLint
