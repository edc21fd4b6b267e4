/-!
The short label of a diagram, read off the word its source opens with. Words that the table does
not know label themselves, and a source that opens with anything but a word is `unknown`. The word
is measured in bytes and cut off there, which is between two characters (`isValid_wordSize`).
-/

set_option autoImplicit false

namespace FenceLint.Diagram

/-- The label of a source that opens with no word. -/
def unknown : String := "unknown"

/-- Opening keywords and the label each one is reported under. -/
def keywords : List (String × String) :=
  [("graph", "flowchart"), ("flowchart", "flowchart"), ("sequenceDiagram", "sequence"),
    ("classDiagram", "class"), ("stateDiagram", "state"), ("erDiagram", "er"),
    ("journey", "journey"), ("gantt", "gantt"), ("pie", "pie"), ("quadrantChart", "quadrant"),
    ("requirementDiagram", "requirement"), ("gitGraph", "gitgraph"), ("C4Context", "c4"),
    ("C4Container", "c4"), ("C4Component", "c4"), ("C4Dynamic", "c4"), ("C4Deployment", "c4"),
    ("mindmap", "mindmap"), ("timeline", "timeline"), ("sankey", "sankey"),
    ("xychart", "xychart"), ("block", "block"), ("packet", "packet"), ("kanban", "kanban"),
    ("architecture", "architecture")]

/-- Words are made of ASCII letters, digits and underscores. -/
def isWordChar (c : Char) : Bool := c.isAlphanum || c == '_'

/-- Characters, each with the number of bytes in front of it. -/
def offsets (before : Nat) : List Char → List (Nat × Char)
  | [] => []
  | c :: cs => (before, c) :: offsets (before + c.utf8Size) cs

/-- The number of bytes in front of the first character that belongs to no word, or of all bytes if
there is none. -/
def wordSize (code : String) : Nat :=
  (((offsets 0 code.toList).find? fun entry ↦ !isWordChar entry.2).map (·.1)).getD
    code.utf8ByteSize

theorem getD_find?_offsets (before : Nat) (cs : List Char) :
    (((offsets before cs).find? fun entry ↦ !isWordChar entry.2).map (·.1)).getD
        (before + (String.ofList cs).utf8ByteSize) =
      before + (String.ofList (cs.takeWhile isWordChar)).utf8ByteSize := by
  have hcons (c : Char) (cs : List Char) : (String.ofList (c :: cs)).utf8ByteSize =
      c.utf8Size + (String.ofList cs).utf8ByteSize := by
    rw [String.ofList_cons, String.utf8ByteSize_append, String.utf8ByteSize_singleton]
  induction cs generalizing before with
  | nil => rfl
  | cons c cs ih =>
    cases hc : isWordChar c with
    | true =>
      rw [offsets, List.find?_cons_of_neg (by simp [hc]), List.takeWhile_cons_of_pos hc, hcons,
        hcons, ← Nat.add_assoc, ← Nat.add_assoc]
      exact ih (before + c.utf8Size)
    | false =>
      rw [offsets, List.find?_cons_of_pos (by simp [hc]),
        List.takeWhile_cons_of_neg (by simp [hc])]
      rfl

/-- The word characters that a source opens with take up these bytes. -/
theorem wordSize_eq (code : String) :
    wordSize code = (String.ofList (code.toList.takeWhile isWordChar)).utf8ByteSize := by
  have hsize := getD_find?_offsets 0 code.toList
  rwa [Nat.zero_add, Nat.zero_add, String.ofList_toList] at hsize

/-- The word characters in front, and what is behind them. -/
theorem takeWhile_append_dropWhile (code : String) :
    String.ofList (code.toList.takeWhile isWordChar) ++
      String.ofList (code.toList.dropWhile isWordChar) = code := by
  rw [← String.ofList_append, List.takeWhile_append_dropWhile, String.ofList_toList]

/-- No character reaches across the end of the opening word. -/
theorem isValid_wordSize (code : String) : (⟨wordSize code⟩ : String.Pos.Raw).IsValid code := by
  refine String.Pos.Raw.isValid_iff_exists_append.mpr
    ⟨_, _, (takeWhile_append_dropWhile code).symm, ?_⟩
  rw [wordSize_eq, String.rawEndPos]

/-- The place where the opening word ends. -/
def wordEnd (code : String) : code.Pos := ⟨⟨wordSize code⟩, isValid_wordSize code⟩

/-- The word a source opens with, empty when it opens with something else. -/
def openingWord (code : String) : String := (code.sliceTo (wordEnd code)).copy

theorem openingWord_eq (code : String) :
    openingWord code = String.ofList (code.toList.takeWhile isWordChar) := by
  have hsplits : (wordEnd code).Splits _ _ :=
    ⟨(takeWhile_append_dropWhile code).symm, String.Pos.Raw.ext (wordSize_eq code)⟩
  rw [openingWord, hsplits.copy_sliceTo_eq]

/-- The label of a diagram source. -/
def label (code : String) : String :=
  if wordSize code = 0 then unknown
  else
    let word := openingWord code
    (keywords.lookup word).getD word

/-- A label is made of the characters of words. -/
theorem isWordChar_of_mem_label {code : String} {c : Char} (h : c ∈ (label code).toList) :
    isWordChar c = true := by
  have hunknown : unknown.toList.all isWordChar = true := by decide +kernel
  have hshort : (keywords.all fun entry ↦ entry.2.toList.all isWordChar) = true := by
    decide +kernel
  have hword : ∀ c ∈ (openingWord code).toList, isWordChar c = true := by
    intro c hc
    rw [openingWord_eq, String.toList_ofList] at hc
    exact List.all_eq_true.mp List.all_takeWhile c hc
  simp only [label] at h
  split at h
  · exact List.all_eq_true.mp hunknown c h
  · cases hlookup : keywords.lookup (openingWord code) with
    | none =>
      rw [hlookup] at h
      exact hword c h
    | some short =>
      rw [hlookup] at h
      obtain ⟨front, back, hkeywords, -⟩ := List.lookup_eq_some_iff.mp hlookup
      have hentry := List.all_eq_true.mp hshort (openingWord code, short) (by simp [hkeywords])
      exact List.all_eq_true.mp hentry c h

end FenceLint.Diagram
