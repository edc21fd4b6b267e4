import FenceLint.Proofs.Report.Ink
import FenceLint.Proofs.Text.Rows

/-!
The lines of a printed report, written out. A report is laid out in parts, which do not depend on
the printer, and `Part.lines` spells the lines of each part: a heading, the entry of a block with
the rows of its reason, the totals of a document, a failure, the totals of all documents. The
printer writes these lines (`blockLines_eq`, `summaryLine_eq`), each with a line feed behind it
(`toList_text`). What a line holds besides names and reasons are visible characters, so where those
hold no escape the line bleaches to the one that plain ink writes (`Part.bleaches_lines`).
-/

set_option autoImplicit false

namespace FenceLint

open Ink

namespace Printer

section Plain

/-- Text of visible characters and spaces holds neither an escape nor a line feed. -/
theorem not_mem_of_shown {cs : List Char} (h : Json.Shown cs) : escape ∉ cs ∧ '\n' ∉ cs := by
  constructor
  · intro hmem
    exact absurd (h _ hmem) (by decide)
  · intro hmem
    exact absurd (h _ hmem) (by decide)

theorem shown_append {s t : String} (hs : Json.Shown s.toList) (ht : Json.Shown t.toList) :
    Json.Shown (s ++ t).toList := by
  rw [String.toList_append]
  exact hs.append ht

/-- No control character is part of a word. -/
theorem le_toNat_of_isWordChar {c : Char} (h : Diagram.isWordChar c = true) : 32 ≤ c.toNat := by
  have hsmall : ∀ n < 32, Diagram.isWordChar (Char.ofNat n) = false := by decide
  by_contra hlt
  have hc := hsmall c.toNat (by omega)
  rw [Char.ofNat_toNat, h] at hc
  exact Bool.noConfusion hc

theorem shown_label (code : String) : Json.Shown (Diagram.label code).toList :=
  fun _ hc ↦ le_toNat_of_isWordChar (Diagram.isWordChar_of_mem_label hc)

theorem shown_nat (n : Nat) : Json.Shown (toString n).toList := by
  intro c hc
  have hdigit : c.isDigit = true := by
    rw [Nat.toString_eq_repr, Nat.toList_repr] at hc
    exact Nat.isDigit_of_mem_toDigits (by decide) (by decide) hc
  apply le_toNat_of_isWordChar
  rw [Diagram.isWordChar, Char.isAlphanum, hdigit, Bool.or_true, Bool.true_or]

theorem shown_onePlace (x : Float) : Json.Shown (Decimal.onePlace x).toList := by
  unfold Decimal.onePlace
  split
  · rename_i negative b _
    rw [String.toList_ofList]
    have hsign : Json.Shown (if negative then ['-'] else []) := by
      cases negative <;> decide
    exact (hsign.append (Json.shown_digits _)).append (.cons (by decide) (Json.shown_digits _))
  · split <;> decide
  · decide

end Plain

section Facts

/-- The facts about a block that stand behind its mark. -/
def blockFacts (c : CheckedBlock) : String :=
  let span := "(lines " ++ toString c.block.lineStart ++ "-" ++ toString c.block.lineEnd ++ ")"
  " block " ++ toString c.block.index ++ " " ++ c.block.diagramType ++ " " ++ span ++ " " ++
    Decimal.onePlace c.verdict.elapsed ++ "ms"

theorem shown_blockFacts (c : CheckedBlock) : Json.Shown (blockFacts c).toList := by
  have hspan : Json.Shown ("(lines " ++ toString c.block.lineStart ++ "-" ++
      toString c.block.lineEnd ++ ")").toList :=
    shown_append (shown_append (shown_append (shown_append (by decide) (shown_nat _)) (by decide))
      (shown_nat _)) (by decide)
  have hfront : Json.Shown (" block " ++ toString c.block.index ++ " " ++ c.block.diagramType ++
      " ").toList :=
    shown_append (shown_append (shown_append (shown_append (by decide) (shown_nat _)) (by decide))
      (shown_label _)) (by decide)
  exact shown_append (shown_append (shown_append (shown_append hfront hspan) (by decide))
    (shown_onePlace _)) (by decide)

/-- The rows of the reason against a block, none if it is valid. -/
def reasons (c : CheckedBlock) : List String :=
  match c.verdict.error? with
  | none => []
  | some error => (Text.rows error.toList).map String.ofList

theorem reasons_of_error {c : CheckedBlock} {error : String} (h : c.verdict.error? = some error) :
    reasons c = (Text.rows error.toList).map String.ofList := by
  rw [reasons, h]

/-- A row of a reason is a piece of an error, and no line feed is in it. -/
theorem exists_error_of_mem_reasons {c : CheckedBlock} {row : String} (h : row ∈ reasons c) :
    '\n' ∉ row.toList ∧
      ∃ error, c.verdict.error? = some error ∧ ∀ x ∈ row.toList, x ∈ error.toList := by
  cases herror : c.verdict.error? with
  | none =>
    rw [reasons, herror] at h
    exact absurd h List.not_mem_nil
  | some error =>
    rw [reasons_of_error herror] at h
    obtain ⟨cs, hcs, rfl⟩ := List.mem_map.mp h
    obtain ⟨hfeed, hsubset⟩ := (Text.rowed_rows error.toList).mem hcs
    rw [String.toList_ofList]
    exact ⟨hfeed, error, rfl, hsubset⟩

/-- The reason against a block, if there is one, holds no escape. -/
def ReasonUnescaped (c : CheckedBlock) : Prop :=
  ∀ error, c.verdict.error? = some error → escape ∉ error.toList

theorem error?_of_isValid {c : CheckedBlock} (h : c.isValid = true) : c.verdict.error? = none := by
  rw [Verdict.error?, Option.isNone_iff_eq_none.mp h]
  rfl

theorem reasons_of_isValid {c : CheckedBlock} (h : c.isValid = true) : reasons c = [] := by
  rw [reasons, error?_of_isValid h]

theorem isValid_of_error {c : CheckedBlock} {error : String} (h : c.verdict.error? = some error) :
    c.isValid = false := by
  refine Bool.eq_false_of_not_eq_true fun hvalid ↦ ?_
  rw [error?_of_isValid hvalid] at h
  exact nomatch h

/-- The totals of a document. -/
def totalsFacts (r : Report) : String :=
  let counts := toString r.validCount ++ " valid, " ++ toString r.invalidCount ++ " invalid"
  "  " ++ toString r.totalBlocks ++ " blocks: " ++ counts ++ " (" ++
    Decimal.onePlace r.totalTime ++ "ms)"

theorem shown_totalsFacts (r : Report) : Json.Shown (totalsFacts r).toList := by
  have hcounts : Json.Shown (toString r.validCount ++ " valid, " ++ toString r.invalidCount ++
      " invalid").toList :=
    shown_append (shown_append (shown_append (shown_nat _) (by decide)) (shown_nat _)) (by decide)
  exact shown_append (shown_append (shown_append (shown_append (shown_append (shown_append
    (by decide) (shown_nat _)) (by decide)) hcounts) (by decide)) (shown_onePlace _)) (by decide)

/-- The totals of a summary that stand behind its heading. -/
def summaryFacts (t : Summary) : String :=
  let counts := toString t.totalDiagrams ++ " diagrams, " ++ toString t.totalValid ++ " valid, " ++
    toString t.totalInvalid ++ " invalid"
  " " ++ toString t.filesChecked ++ " files: " ++ counts ++ ", " ++ toString t.filesWithErrors ++
    " " ++ (if t.filesWithErrors = 1 then "file" else "files") ++ " with errors (" ++
    Decimal.onePlace t.totalTime ++ "ms)"

theorem shown_summaryFacts (t : Summary) : Json.Shown (summaryFacts t).toList := by
  have hcounts : Json.Shown (toString t.totalDiagrams ++ " diagrams, " ++ toString t.totalValid ++
      " valid, " ++ toString t.totalInvalid ++ " invalid").toList :=
    shown_append (shown_append (shown_append (shown_append (shown_append (shown_nat _) (by decide))
      (shown_nat _)) (by decide)) (shown_nat _)) (by decide)
  have hfiles : Json.Shown (if t.filesWithErrors = 1 then "file" else "files").toList := by
    split <;> decide
  have hfront : Json.Shown (" " ++ toString t.filesChecked ++ " files: ").toList :=
    shown_append (shown_append (by decide) (shown_nat _)) (by decide)
  have herrors := shown_append (shown_append (shown_append (shown_append hfront hcounts)
    (by decide : Json.Shown ", ".toList)) (shown_nat t.filesWithErrors))
    (by decide : Json.Shown " ".toList)
  exact shown_append (shown_append (shown_append (shown_append herrors hfiles) (by decide))
    (shown_onePlace _)) (by decide)

end Facts

/-- What a stretch of a printed report is about. -/
inductive Part
  /-- The name of a document. -/
  | heading (r : Report)
  /-- That a document has no blocks. -/
  | noBlocks (r : Report)
  /-- A block of a document, and what is wrong with it. -/
  | block (r : Report) (c : CheckedBlock)
  /-- The totals of a document. -/
  | totals (r : Report)
  /-- A document that could not be checked. -/
  | failure (f : FileFailure)
  /-- The totals of all documents. -/
  | summary (t : Summary)

namespace Part

/-- The lines of a part in an ink. -/
def lines (ink : Ink) : Part → List String
  | heading r => [ink.paint .bold r.sourceFile]
  | noBlocks _ => ["  no diagram blocks found"]
  | block _ c =>
    let mark := if c.isValid then ink.paint .green "✓" else ink.paint .red "✗"
    ("  " ++ mark ++ blockFacts c) :: (reasons c).map fun row ↦ "      " ++ ink.paint .red row
  | totals r => [totalsFacts r]
  | failure f => [ink.paint .yellow "!" ++ " " ++ f.sourceFile ++ ": " ++ f.error]
  | summary t => [ink.paint .bold "Checked" ++ summaryFacts t]

/-- The characters of parts, one part below the other: every line has a line feed behind it. -/
def print (ink : Ink) (parts : List Part) : List Char :=
  (parts.flatMap (lines ink)).flatMap fun line ↦ line.toList ++ ['\n']

/-- No text of a part holds an escape. -/
def Unescaped : Part → Prop
  | heading r => escape ∉ r.sourceFile.toList
  | noBlocks _ => True
  | block _ c => ReasonUnescaped c
  | totals _ => True
  | failure f => escape ∉ f.sourceFile.toList ∧ escape ∉ f.error.toList
  | summary _ => True

variable (ink : Ink) {part : Part}

/-- The lines of a part are those of plain ink, but for the styles. -/
theorem bleaches_lines (h : part.Unescaped) :
    List.Forall₂ Bleaches (part.lines ink) (part.lines .plain) := by
  cases part with
  | heading r => exact .cons (bleaches_paint ink .bold h) .nil
  | noBlocks r => exact .cons (bleaches_self (by decide)) .nil
  | block r c =>
    have hmark : Bleaches (if c.isValid then ink.paint .green "✓" else ink.paint .red "✗")
        (if c.isValid then plain.paint .green "✓" else plain.paint .red "✗") := by
      split
      · exact bleaches_paint ink .green (by decide)
      · exact bleaches_paint ink .red (by decide)
    refine .cons (((bleaches_self (by decide)).append hmark).append
      (bleaches_self (not_mem_of_shown (shown_blockFacts c)).1)) ?_
    rw [List.forall₂_map_left_iff, List.forall₂_map_right_iff, List.forall₂_same]
    intro row hrow
    obtain ⟨-, error, herror, hchars⟩ := exists_error_of_mem_reasons hrow
    exact (bleaches_self (by decide)).append
      (bleaches_paint ink .red fun hmem ↦ h error herror (hchars _ hmem))
  | totals r => exact .cons (bleaches_self (not_mem_of_shown (shown_totalsFacts r)).1) .nil
  | failure f =>
    have hmark : Bleaches (ink.paint .yellow "!") (plain.paint .yellow "!") :=
      bleaches_paint ink .yellow (by decide)
    exact .cons ((((hmark.append (bleaches_self (by decide))).append (bleaches_self h.1)).append
      (bleaches_self (by decide))).append (bleaches_self h.2)) .nil
  | summary t =>
    exact .cons ((bleaches_paint ink .bold (by decide)).append
      (bleaches_self (not_mem_of_shown (shown_summaryFacts t)).1)) .nil

/-- Lines that bleach one by one bleach when they are put below each other. -/
theorem bleach_lines {lines others : List String} (h : List.Forall₂ Bleaches lines others) :
    bleach (lines.flatMap fun line ↦ line.toList ++ ['\n']) =
      others.flatMap fun line ↦ line.toList ++ ['\n'] := by
  induction h with
  | nil => exact bleach_nil
  | cons hline _ ih =>
    have hfeed : '\n' ≠ escape := by decide
    rw [List.flatMap_cons, List.flatMap_cons, List.append_assoc, hline, List.singleton_append,
      bleach_cons_of_ne hfeed, ih, List.append_assoc, List.singleton_append]

theorem bleach_print {parts : List Part} (h : ∀ part ∈ parts, part.Unescaped) :
    bleach (print ink parts) = print .plain parts := by
  apply bleach_lines
  induction parts with
  | nil => exact .nil
  | cons part rest ih =>
    obtain ⟨hpart, hrest⟩ := List.forall_mem_cons.mp h
    exact List.rel_append (bleaches_lines ink hpart) (ih hrest)

/-- What is printed of a block are lines: none of them holds a line feed. -/
theorem feed_not_mem_lines_block (r : Report) (c : CheckedBlock) {line : String}
    (h : line ∈ (block r c).lines ink) : '\n' ∉ line.toList := by
  rcases List.mem_cons.mp h with rfl | h
  · have hmark : '\n' ∉ (if c.isValid then ink.paint .green "✓"
        else ink.paint .red "✗").toList := by
      split
      · exact ink.feed_not_mem_paint .green (by decide)
      · exact ink.feed_not_mem_paint .red (by decide)
    rw [String.toList_append, String.toList_append, List.mem_append, List.mem_append, not_or,
      not_or]
    exact ⟨⟨by decide, hmark⟩, (not_mem_of_shown (shown_blockFacts c)).2⟩
  · obtain ⟨row, hrow, rfl⟩ := List.mem_map.mp h
    rw [String.toList_append, List.mem_append, not_or]
    exact ⟨by decide, ink.feed_not_mem_paint .red (exists_error_of_mem_reasons hrow).1⟩

end Part

section Printed

variable (ink : Ink) (quiet : Bool)

theorem blockLine_eq (c : CheckedBlock) : blockLine ⟨ink, quiet⟩ c = "  " ++
    (if c.isValid then ink.paint .green "✓" else ink.paint .red "✗") ++ blockFacts c := by
  have hpieces : blockLine ⟨ink, quiet⟩ c = "  " ++
      (if c.isValid then ink.paint .green "✓" else ink.paint .red "✗") ++ " block " ++
      toString c.block.index ++ " " ++ c.block.diagramType ++ " " ++
      ("(lines " ++ toString c.block.lineStart ++ "-" ++ toString c.block.lineEnd ++ ")") ++ " " ++
      Decimal.onePlace c.verdict.elapsed ++ "ms" := rfl
  rw [hpieces]
  delta blockFacts
  simp only [String.append_assoc]

theorem reasonLines_eq (c : CheckedBlock) : reasonLines ⟨ink, quiet⟩ c =
    (reasons c).map fun row ↦ "      " ++ ink.paint .red row := by
  cases herror : c.verdict.error? with
  | none => simp only [reasonLines, reasons, herror, List.map_nil]
  | some error => simp only [reasonLines, reasons, herror, List.map_map, Function.comp_def]

theorem blockLines_eq (r : Report) (c : CheckedBlock) :
    blockLines ⟨ink, quiet⟩ c = (Part.block r c).lines ink := by
  rw [blockLines, blockLine_eq, reasonLines_eq]
  rfl

theorem summaryLine_eq (t : Summary) :
    summaryLine ⟨ink, quiet⟩ t = ink.paint .bold "Checked" ++ summaryFacts t := by
  have hpieces : summaryLine ⟨ink, quiet⟩ t = ink.paint .bold "Checked" ++ " " ++
      toString t.filesChecked ++ " files: " ++ (toString t.totalDiagrams ++ " diagrams, " ++
        toString t.totalValid ++ " valid, " ++ toString t.totalInvalid ++ " invalid") ++ ", " ++
      toString t.filesWithErrors ++ " " ++ (if t.filesWithErrors = 1 then "file" else "files") ++
      " with errors (" ++ Decimal.onePlace t.totalTime ++ "ms)" := rfl
  rw [hpieces]
  delta summaryFacts
  simp only [String.append_assoc]

/-- Lines are written with a line feed behind each. -/
theorem toList_text (lines : List String) :
    (text lines).toList = lines.flatMap fun line ↦ line.toList ++ ['\n'] := by
  simp [text, String.toList_join, List.flatMap_map]

end Printed

end Printer

end FenceLint
