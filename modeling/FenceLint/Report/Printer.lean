import FenceLint.Decimal.Fixed
import FenceLint.Report.Collection
import FenceLint.Text.Lines

/-!
Reports for a terminal. Color only puts a sequence before and one after a styled text; quiet
printing leaves out the lines of valid blocks and, among several documents, those that pass.
-/

set_option autoImplicit false

namespace FenceLint

/-- The styles in use. -/
inductive Style
  | green | red | yellow | bold
  deriving DecidableEq, Repr

/-- How styled text is written. -/
inductive Ink
  /-- As it is. -/
  | plain
  /-- Between the sequences of its style. -/
  | vivid
  /-- As `vivid`, but where colors are unwanted their sequences name none. -/
  | pale
  deriving DecidableEq, Repr

namespace Ink

/-- The control sequence with these parameters. -/
def sequence (parameters : String) : String := "\x1b[" ++ parameters ++ "m"

/-- The sequences around a text of a style. -/
def around : Ink → Style → String × String
  | plain, _ => ("", "")
  | _, .bold => (sequence "1", sequence "0")
  | pale, _ => (sequence "", sequence "")
  | vivid, .green => (sequence "38;5;10", sequence "39")
  | vivid, .red => (sequence "38;5;9", sequence "39")
  | vivid, .yellow => (sequence "38;5;11", sequence "39")

/-- A text in a style. -/
def paint (ink : Ink) (style : Style) (text : String) : String :=
  (ink.around style).1 ++ text ++ (ink.around style).2

end Ink

/-- How reports are printed. -/
structure Printer where
  ink : Ink
  /-- Leave out what is in order. -/
  quiet : Bool
  deriving DecidableEq, Repr

namespace Printer

/-- The line of a block. -/
def blockLine (p : Printer) (c : CheckedBlock) : String :=
  let mark := if c.isValid then p.ink.paint .green "✓" else p.ink.paint .red "✗"
  let b := c.block
  let lines := s!"(lines {b.lineStart}-{b.lineEnd})"
  s!"  {mark} block {b.index} {b.diagramType} {lines} {Decimal.onePlace c.verdict.elapsed}ms"

/-- The lines of the error of a block. -/
def reasonLines (p : Printer) (c : CheckedBlock) : List String :=
  match c.verdict.error? with
  | none => []
  | some error => (Text.rows error.toList).map fun row ↦
      "      " ++ p.ink.paint .red (String.ofList row)

/-- The line of a block and those of its error. -/
def blockLines (p : Printer) (c : CheckedBlock) : List String := p.blockLine c :: p.reasonLines c

/-- The line that names a document. -/
def headingLine (p : Printer) (r : Report) : String := p.ink.paint .bold r.sourceFile

/-- What is said of a document without blocks. -/
def noBlocksLine : String := "  no diagram blocks found"

/-- The line of a document's totals. -/
def totalsLine (r : Report) : String :=
  let counts := s!"{r.validCount} valid, {r.invalidCount} invalid"
  s!"  {r.totalBlocks} blocks: {counts} ({Decimal.onePlace r.totalTime}ms)"

/-- The lines of one document. -/
def reportLines (p : Printer) (r : Report) : List String :=
  if r.totalBlocks = 0 then [p.headingLine r, noBlocksLine]
  else
    let shown := if p.quiet then r.invalidBlocks else r.blocks
    p.headingLine r :: shown.flatMap p.blockLines ++ [totalsLine r]

/-- The line of a document that could not be checked. -/
def failureLine (p : Printer) (f : FileFailure) : String :=
  let mark := p.ink.paint .yellow "!"
  s!"{mark} {f.sourceFile}: {f.error}"

/-- The line of totals. -/
def summaryLine (p : Printer) (s : Summary) : String :=
  let files := if s.filesWithErrors = 1 then "file" else "files"
  let heading := p.ink.paint .bold "Checked"
  let counts := s!"{s.totalDiagrams} diagrams, {s.totalValid} valid, {s.totalInvalid} invalid"
  let time := Decimal.onePlace s.totalTime
  s!"{heading} {s.filesChecked} files: {counts}, {s.filesWithErrors} {files} with errors ({time}ms)"

/-- The lines of several documents, the totals last. -/
def multiLines (p : Printer) (m : MultiReport) : List String :=
  let shown := if p.quiet then m.files.filter fun r ↦ !r.passed else m.files
  shown.flatMap p.reportLines ++ m.failures.map p.failureLine ++ [p.summaryLine m.summary]

/-- Lines as text, each ended by a line feed. -/
def text (lines : List String) : String := String.join (lines.map (· ++ "\n"))

/-- One document as text. -/
def report (p : Printer) (r : Report) : String := text (p.reportLines r)

/-- Several documents as text. -/
def multiReport (p : Printer) (m : MultiReport) : String := text (p.multiLines m)

end Printer

end FenceLint
