import FenceLint.Act
import FenceLint.Block
import FenceLint.Log.Target
import FenceLint.Text.Blank
import FenceLint.Text.Lines

/-!
Finding the fenced blocks of a document. A fence opens on a line that trims to three backticks and
the language tag, and closes on the next line that trims to three backticks alone; everything in
between is content, whatever it looks like. `marks` is the record of one pass over the lines, and
the blocks are the closed ones among its marks.
-/

set_option autoImplicit false

namespace FenceLint.Fence

/-- A bare fence. -/
def fence : List Char := ['\x60', '\x60', '\x60']

/-- The language tag that marks diagrams unless another is asked for. -/
def defaultLanguage : String := "mermaid"

/-- What a line must trim to for a fence of `language` to open on it. -/
def opener (language : String) : List Char := fence ++ language.toList

/-- What the scan has met. -/
inductive Mark
  /-- A fence opened on this line. -/
  | opened (line : Nat)
  /-- A fence closed and gave a block. -/
  | closed (block : Block)
  /-- The text ended inside the fence that opened on this line. -/
  | dropped (line : Nat)
  deriving DecidableEq, Repr

/-- Where the scan stands between two lines. -/
inductive Place
  | outside
  /-- Inside the fence that opened on line `opened`, with the content so far, last line first. -/
  | inside (opened : Nat) (body : List (List Char))
  deriving DecidableEq, Repr

/-- One pass over lines whose first has number `line`; `index` is that of the next block. -/
def scan (openMark : List Char) : Nat → Nat → Place → List (List Char) → List Mark
  | _, _, .outside, [] => []
  | _, _, .inside opened _, [] => [.dropped opened]
  | line, index, .outside, text :: rest =>
    if Text.trim text = openMark then
      .opened line :: scan openMark (line + 1) index (.inside line []) rest
    else scan openMark (line + 1) index .outside rest
  | line, index, .inside opened body, text :: rest =>
    if Text.trim text = fence then
      .closed ⟨index, opened + 1, line, String.ofList (Text.joinLines body.reverse)⟩ ::
        scan openMark (line + 1) (index + 1) .outside rest
    else scan openMark (line + 1) index (.inside opened (text :: body)) rest

/-- The lines that a scan sees: a carriage return before a line end is not content. -/
def linesOf (text : String) : List (List Char) :=
  (Text.segments text.toList).map Text.dropReturn

/-- All that a scan of a text meets, in order. -/
def marks (language text : String) : List Mark :=
  scan (opener language) 1 0 .outside (linesOf text)

/-- The block that a mark stands for. -/
def Mark.block? : Mark → Option Block
  | .closed block => some block
  | _ => none

/-- The closed blocks of a text, in order. -/
def extract (language text : String) : List Block :=
  (marks language text).filterMap Mark.block?

/-- A mark as the log tells it. -/
def Mark.item (language : String) : Mark → Log.Item
  | .opened line =>
    .event ⟨.trace, Log.Target.extractor, "Opening fence", [("line", .count line)]⟩
  | .closed block =>
    .event ⟨.trace, Log.Target.extractor, "Closed block",
      [("index", .count block.index), ("line_start", .count block.lineStart),
        ("line_end", .count block.lineEnd), ("diagram_type", .shown block.diagramType)]⟩
  | .dropped line =>
    .event ⟨.warn, Log.Target.extractor, "Dropping unterminated diagram block",
      [("opened_at", .count line), ("language", .shown language)]⟩

/-- `extract` with its log. -/
def extraction {σ : Type} (language text : String) : Act σ (List Block) :=
  let met := marks language text
  let blocks := met.filterMap Mark.block?
  Act.within ⟨.debug, Log.Target.extractor, "extract",
      [("input_len", .count text.utf8ByteSize)]⟩ do
    Act.tellAll (met.map (Mark.item language))
    Act.log .debug Log.Target.extractor "Extraction completed"
      [("block_count", .count blocks.length)]
    pure blocks

end FenceLint.Fence
