import FenceLint.Diagram.Label

/-!
One fenced diagram of a document: where it stands and what it says. The kind of diagram is not
stored, it is read off the code each time, so the two cannot disagree.
-/

set_option autoImplicit false

namespace FenceLint

/-- A closed fenced region of a document. -/
structure Block where
  /-- Position among the blocks of the document, from zero. -/
  index : Nat
  /-- Number of the line below the opening fence, from one. -/
  lineStart : Nat
  /-- Number of the line of the closing fence. -/
  lineEnd : Nat
  /-- The lines between the fences, joined by line feeds. -/
  code : String
  deriving DecidableEq, Repr

namespace Block

/-- The label of the diagram in the block. -/
def diagramType (b : Block) : String := Diagram.label b.code

/-- The block as messages name it. -/
def display (b : Block) : String :=
  s!"block {b.index} ({b.diagramType}, lines {b.lineStart}-{b.lineEnd})"

end Block

end FenceLint
