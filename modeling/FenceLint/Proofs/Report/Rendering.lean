import FenceLint.Proofs.Report.Lines
import FenceLint.Proofs.Report.Totals

/-!
What the renderings of a report have in common. Any ink writes each part of a report with the same
lines, but for the styles, and quiet printing leaves out whole parts: the entries of valid blocks,
one line each, and among several documents all that belongs to a document that passes. What
somebody has to act on is shown by every printer, in the order of the layout
(`Report.Counted.filter_shown`, `MultiReport.filter_shown`).
-/

set_option autoImplicit false

namespace FenceLint

open Ink

namespace Printer

namespace Part

/-- The entry of a valid block. -/
def isValidEntry : Part → Bool
  | block _ c => c.isValid
  | _ => false

/-- The entry of an invalid block. -/
def isInvalidEntry : Part → Bool
  | block _ c => !c.isValid
  | _ => false

/-- A part of the section of a document that passes. -/
def isOfPassing : Part → Bool
  | heading r => r.passed
  | noBlocks r => r.passed
  | block r _ => r.passed
  | totals r => r.passed
  | failure _ => false
  | summary _ => false

/-- What somebody has to act on, and the totals that go with it. -/
def isEssential : Part → Bool
  | heading _ => false
  | noBlocks _ => false
  | block _ c => !c.isValid
  | totals r => !r.passed
  | failure _ => true
  | summary _ => true

variable {part : Part}

theorem isEssential_of_isInvalidEntry (h : part.isInvalidEntry = true) :
    part.isEssential = true := by
  cases part with
  | block r c => exact h
  | heading r => exact absurd h Bool.false_ne_true
  | noBlocks r => exact absurd h Bool.false_ne_true
  | totals r => exact absurd h Bool.false_ne_true
  | failure f => exact absurd h Bool.false_ne_true
  | summary t => exact absurd h Bool.false_ne_true

theorem isValidEntry_of_isEssential (h : part.isEssential = true) :
    part.isValidEntry = false := by
  cases part with
  | block r c => exact Bool.not_eq_true' _ ▸ h
  | heading r => rfl
  | noBlocks r => rfl
  | totals r => rfl
  | failure f => rfl
  | summary t => rfl

end Part

end Printer

open Printer

namespace Report

variable {r : Report}

/-- The parts of a report with the entries of these blocks. -/
def layout (r : Report) (blocks : List CheckedBlock) : List Part :=
  if r.totalBlocks = 0 then [.heading r, .noBlocks r]
  else .heading r :: blocks.map (.block r) ++ [.totals r]

/-- The parts of a report on one document. -/
def parts (r : Report) : List Part := r.layout r.blocks

/-- The parts that are printed of a document, fully or quietly. -/
def shown (quiet : Bool) (r : Report) : List Part :=
  if quiet then r.parts.filter fun part ↦ !part.isValidEntry else r.parts

/-- What is to be seen of a document in any case. -/
def essentials (r : Report) : List Part :=
  r.invalidBlocks.map (.block r) ++ if r.passed then [] else [.totals r]

/-- The name of a document and the reasons against its blocks hold no escape. -/
def Unescaped (r : Report) : Prop :=
  escape ∉ r.sourceFile.toList ∧ ∀ c ∈ r.blocks, ReasonUnescaped c

theorem mem_parts_cases {part : Part} (h : part ∈ r.parts) :
    part = .heading r ∨ part = .noBlocks r ∨ part = .totals r ∨
      ∃ c ∈ r.blocks, part = .block r c := by
  unfold parts layout at h
  split at h
  · rcases List.mem_pair.mp h with rfl | rfl
    · exact .inl rfl
    · exact .inr (.inl rfl)
  · rcases List.mem_append.mp h with h | h
    · rcases List.mem_cons.mp h with rfl | h
      · exact .inl rfl
      · obtain ⟨c, hc, rfl⟩ := List.mem_map.mp h
        exact .inr (.inr (.inr ⟨c, hc, rfl⟩))
    · exact .inr (.inr (.inl (List.mem_singleton.mp h)))

theorem unescaped_of_mem_parts (h : r.Unescaped) {part : Part} (hpart : part ∈ r.parts) :
    part.Unescaped := by
  rcases mem_parts_cases hpart with rfl | rfl | rfl | ⟨c, hc, rfl⟩
  · exact h.1
  · exact trivial
  · exact trivial
  · exact h.2 c hc

theorem isOfPassing_of_mem_parts {part : Part} (hpart : part ∈ r.parts) :
    part.isOfPassing = r.passed := by
  rcases mem_parts_cases hpart with rfl | rfl | rfl | ⟨c, -, rfl⟩ <;> rfl

/-- Quiet printing leaves out the entries of valid blocks. -/
theorem shown_eq (quiet : Bool) (r : Report) :
    r.shown quiet = r.layout (if quiet then r.invalidBlocks else r.blocks) := by
  cases quiet with
  | false => rfl
  | true =>
    change (r.layout r.blocks).filter _ = r.layout r.invalidBlocks
    unfold layout
    split
    · rfl
    · rw [List.filter_append, List.filter_cons_of_pos rfl, List.filter_map]
      rfl

theorem shown_subset {quiet : Bool} {part : Part} (h : part ∈ r.shown quiet) : part ∈ r.parts := by
  cases quiet with
  | false => exact h
  | true => exact List.mem_of_mem_filter h

/-- The lines of a report are those of the parts shown. -/
theorem reportLines_eq (ink : Ink) (quiet : Bool) (r : Report) :
    reportLines ⟨ink, quiet⟩ r = (r.shown quiet).flatMap (Part.lines ink) := by
  rw [shown_eq]
  unfold reportLines layout
  split
  · rfl
  · have hblocks : (blockLines ⟨ink, quiet⟩) = fun c ↦ (Part.block r c).lines ink :=
      funext fun c ↦ blockLines_eq ink quiet r c
    rw [List.flatMap_append, List.flatMap_cons, List.flatMap_map, hblocks]
    rfl

/-- A document is printed as its parts are. -/
theorem toList_report (ink : Ink) (quiet : Bool) (r : Report) :
    (report ⟨ink, quiet⟩ r).toList = Part.print ink (r.shown quiet) := by
  rw [report, toList_text, reportLines_eq]
  rfl

/-- A counted report is essential for its invalid blocks, and for its totals if there are any. -/
theorem Counted.filter_isEssential (h : r.Counted) :
    r.parts.filter Part.isEssential = r.essentials := by
  unfold parts layout essentials
  split
  · rename_i hzero
    have hblocks : r.blocks = [] := List.eq_nil_of_length_eq_zero (h.total.symm.trans hzero)
    have hpassed : r.passed = true := h.passed_iff.mpr (by simp [hblocks])
    rw [hpassed, invalidBlocks, hblocks]
    rfl
  · rw [List.filter_append, List.filter_cons_of_neg Bool.false_ne_true, List.filter_map]
    cases hpassed : r.passed <;> simp [Part.isEssential, hpassed, invalidBlocks, Function.comp_def]

/-- What is essential is shown, in the order of the report. -/
theorem Counted.filter_shown (h : r.Counted) (quiet : Bool) :
    (r.shown quiet).filter Part.isEssential = r.essentials := by
  rw [← h.filter_isEssential]
  cases quiet with
  | false => rfl
  | true =>
    change (r.parts.filter _).filter _ = _
    rw [List.filter_filter]
    refine List.filter_congr fun part _ ↦ ?_
    cases part <;> simp [Part.isEssential, Part.isValidEntry]

/-- The entries of invalid blocks are counted among the essential parts of a report. -/
theorem Counted.countP_essentials (h : r.Counted) :
    r.essentials.countP Part.isInvalidEntry = r.invalidCount := by
  have hentries : (r.invalidBlocks.map (Part.block r)).countP Part.isInvalidEntry =
      r.invalidBlocks.length := by
    rw [List.countP_map, List.countP_eq_length]
    exact fun c hc ↦ (List.mem_filter.mp hc).2
  have htotals : (if r.passed then [] else [Part.totals r]).countP Part.isInvalidEntry = 0 := by
    split <;> rfl
  rw [essentials, List.countP_append, hentries, htotals, h.invalid, List.countP_eq_length_filter]
  rfl

end Report

/-- Entries of invalid blocks are essential, so to count them is to count among what is. -/
theorem Printer.countP_isInvalidEntry_filter (parts : List Part) :
    (parts.filter Part.isEssential).countP Part.isInvalidEntry =
      parts.countP Part.isInvalidEntry := by
  rw [List.countP_filter]
  refine List.countP_congr fun part _ ↦ ?_
  rw [Bool.and_eq_true]
  exact ⟨And.left, fun h ↦ ⟨h, Part.isEssential_of_isInvalidEntry h⟩⟩

namespace MultiReport

variable {m : MultiReport}

/-- The parts of a report on several documents. -/
def parts (m : MultiReport) : List Part :=
  m.files.flatMap Report.parts ++ m.failures.map .failure ++ [.summary m.summary]

/-- The parts that are printed of several documents, fully or quietly. -/
def shown (quiet : Bool) (m : MultiReport) : List Part :=
  if quiet then m.parts.filter fun part ↦ !(part.isOfPassing || part.isValidEntry) else m.parts

/-- What is to be seen of several documents in any case. -/
def essentials (m : MultiReport) : List Part :=
  m.files.flatMap Report.essentials ++ m.failures.map .failure ++ [.summary m.summary]

/-- No text that is printed of the documents holds an escape. -/
def Unescaped (m : MultiReport) : Prop :=
  (∀ r ∈ m.files, r.Unescaped) ∧
    ∀ f ∈ m.failures, escape ∉ f.sourceFile.toList ∧ escape ∉ f.error.toList

theorem unescaped_of_mem_parts (h : m.Unescaped) {part : Part} (hpart : part ∈ m.parts) :
    part.Unescaped := by
  rcases List.mem_append.mp hpart with hpart | hpart
  · rcases List.mem_append.mp hpart with hpart | hpart
    · obtain ⟨r, hr, hpart⟩ := List.mem_flatMap.mp hpart
      exact Report.unescaped_of_mem_parts (h.1 r hr) hpart
    · obtain ⟨f, hf, rfl⟩ := List.mem_map.mp hpart
      exact h.2 f hf
  · obtain rfl := List.mem_singleton.mp hpart
    exact trivial

theorem shown_subset {quiet : Bool} {part : Part} (h : part ∈ m.shown quiet) : part ∈ m.parts := by
  cases quiet with
  | false => exact h
  | true => exact List.mem_of_mem_filter h

/-- Of one document among several, quiet printing shows what it shows of the document alone, or
nothing if it passes. -/
theorem filter_parts_of_file (r : Report) :
    (r.parts.filter fun part ↦ !(part.isOfPassing || part.isValidEntry)) =
      if r.passed then [] else r.shown true := by
  by_cases hpassed : r.passed = true
  · rw [if_pos hpassed, List.filter_eq_nil_iff]
    intro part hpart
    rw [Report.isOfPassing_of_mem_parts hpart, hpassed]
    exact Bool.false_ne_true
  · rw [if_neg hpassed]
    refine List.filter_congr fun part hpart ↦ ?_
    rw [Report.isOfPassing_of_mem_parts hpart, Bool.eq_false_of_not_eq_true hpassed, Bool.false_or]

theorem shown_eq (quiet : Bool) (m : MultiReport) : m.shown quiet =
    (if quiet then m.files.filter fun r ↦ !r.passed else m.files).flatMap (Report.shown quiet) ++
      m.failures.map .failure ++ [.summary m.summary] := by
  cases quiet with
  | false => rfl
  | true =>
    have hfiles : (m.files.flatMap Report.parts).filter
        (fun part ↦ !(part.isOfPassing || part.isValidEntry)) =
        (m.files.filter fun r ↦ !r.passed).flatMap (Report.shown true) := by
      rw [List.filter_flatMap]
      induction m.files with
      | nil => rfl
      | cons r rest ih =>
        rw [List.flatMap_cons, ih, filter_parts_of_file, List.filter_cons]
        cases r.passed <;> rfl
    have hfailures : (m.failures.map Part.failure).filter
        (fun part ↦ !(part.isOfPassing || part.isValidEntry)) = m.failures.map .failure := by
      rw [List.filter_map]
      exact congrArg _ (List.filter_eq_self.mpr fun _ _ ↦ rfl)
    change m.parts.filter _ = _
    rw [parts, List.filter_append, List.filter_append, hfiles, hfailures]
    rfl

/-- The lines of several documents are those of the parts shown. -/
theorem multiLines_eq (ink : Ink) (quiet : Bool) (m : MultiReport) :
    multiLines ⟨ink, quiet⟩ m = (m.shown quiet).flatMap (Part.lines ink) := by
  have hfailures : (m.failures.map Part.failure).flatMap (Part.lines ink) =
      m.failures.map (failureLine ⟨ink, quiet⟩) := by
    rw [List.flatMap_map, List.map_eq_flatMap]
    rfl
  have hfiles (files : List Report) :
      (files.flatMap (Report.shown quiet)).flatMap (Part.lines ink) =
        files.flatMap (reportLines ⟨ink, quiet⟩) := by
    rw [List.flatMap_assoc]
    exact List.flatMap_congr fun r _ ↦ (Report.reportLines_eq ink quiet r).symm
  have hsummary : [Part.summary m.summary].flatMap (Part.lines ink) =
      [summaryLine ⟨ink, quiet⟩ m.summary] := by
    rw [summaryLine_eq]
    rfl
  rw [shown_eq, List.flatMap_append, List.flatMap_append, hfiles, hfailures, hsummary]
  rfl

/-- Several documents are printed as their parts are. -/
theorem toList_multiReport (ink : Ink) (quiet : Bool) (m : MultiReport) :
    (multiReport ⟨ink, quiet⟩ m).toList = Part.print ink (m.shown quiet) := by
  rw [multiReport, toList_text, multiLines_eq]
  rfl

/-- A part that is essential belongs to no document that passes. -/
theorem isOfPassing_of_isEssential (h : ∀ r ∈ m.files, r.Counted) {part : Part}
    (hpart : part ∈ m.parts) (hessential : part.isEssential = true) :
    part.isOfPassing = false := by
  rcases List.mem_append.mp hpart with hpart | hpart
  · rcases List.mem_append.mp hpart with hpart | hpart
    · obtain ⟨r, hr, hpart⟩ := List.mem_flatMap.mp hpart
      have hmem : part ∈ r.essentials := by
        rw [← (h r hr).filter_isEssential]
        exact List.mem_filter.mpr ⟨hpart, hessential⟩
      rw [Report.isOfPassing_of_mem_parts hpart]
      rcases List.mem_append.mp hmem with hmem | hmem
      · obtain ⟨c, hc, -⟩ := List.mem_map.mp hmem
        obtain ⟨hc, hinvalid⟩ := List.mem_filter.mp hc
        refine Bool.eq_false_of_not_eq_true fun hpassed ↦ ?_
        rw [(h r hr).passed_iff.mp hpassed c hc] at hinvalid
        exact Bool.false_ne_true hinvalid
      · split at hmem
        · exact absurd hmem List.not_mem_nil
        · rename_i hpassed
          exact Bool.eq_false_of_not_eq_true hpassed
    · obtain ⟨f, -, rfl⟩ := List.mem_map.mp hpart
      rfl
  · obtain rfl := List.mem_singleton.mp hpart
    rfl

theorem filter_isEssential (h : ∀ r ∈ m.files, r.Counted) :
    m.parts.filter Part.isEssential = m.essentials := by
  have hfiles : (m.files.flatMap Report.parts).filter Part.isEssential =
      m.files.flatMap Report.essentials := by
    rw [List.filter_flatMap]
    exact List.flatMap_congr fun r hr ↦ (h r hr).filter_isEssential
  have hfailures : (m.failures.map Part.failure).filter Part.isEssential =
      m.failures.map .failure := by
    rw [List.filter_map]
    exact congrArg _ (List.filter_eq_self.mpr fun _ _ ↦ rfl)
  rw [parts, List.filter_append, List.filter_append, hfiles, hfailures]
  rfl

/-- What is essential is shown, in the order of the report. -/
theorem filter_shown (h : ∀ r ∈ m.files, r.Counted) (quiet : Bool) :
    (m.shown quiet).filter Part.isEssential = m.essentials := by
  rw [← filter_isEssential h]
  cases quiet with
  | false => rfl
  | true =>
    change (m.parts.filter _).filter _ = _
    rw [List.filter_filter]
    refine List.filter_congr fun part hpart ↦ ?_
    by_cases hessential : part.isEssential = true
    · rw [isOfPassing_of_isEssential h hpart hessential,
        Part.isValidEntry_of_isEssential hessential, hessential]
      rfl
    · rw [Bool.eq_false_of_not_eq_true hessential, Bool.false_and]

/-- The entries of invalid blocks are counted among the essential parts of all documents. -/
theorem countP_essentials (h : ∀ r ∈ m.files, r.Counted) (hsums : m.summary.Sums m.files) :
    m.essentials.countP Part.isInvalidEntry = m.summary.totalInvalid := by
  have hfiles : (m.files.flatMap Report.essentials).countP Part.isInvalidEntry =
      m.summary.totalInvalid := by
    rw [List.countP_flatMap, hsums.invalid]
    exact congrArg List.sum (List.map_congr_left fun r hr ↦ (h r hr).countP_essentials)
  have hfailures : (m.failures.map Part.failure).countP Part.isInvalidEntry = 0 := by
    rw [List.countP_map, List.countP_eq_zero]
    exact fun _ _ ↦ Bool.false_ne_true
  rw [essentials, List.countP_append, List.countP_append, hfiles, hfailures]
  rfl

end MultiReport

section Renderings

/-- The renderings of a report agree. Any ink but the plain one puts a style sequence before and one
after a styled text, and deleting these from what is printed, fully or quietly, gives what is
printed without styles, where no text holds an escape. What is printed are the lines of the parts of
the report, each with a line feed behind it. Quiet printing leaves out the entries of valid blocks,
one line each, and among several documents the sections of those that pass; all other parts stay, in
their order. So each invalid block with every line of its error, the totals of its document, each
failure and the summary are printed in any case, and as many entries of invalid blocks as are
counted. -/
theorem renderings_agree (source : String) (checked : List CheckedBlock)
    (docs : List (String × List CheckedBlock)) (failures : List FileFailure) :
    let r := Report.ofBlocks source checked
    let m := MultiReport.ofReports (Report.ofEach docs) failures
    (∀ (ink : Ink) style text, Ink.plain.paint style text = text ∧ (ink ≠ .plain →
      ∃ before behind, ink.paint style text = sequence before ++ text ++ sequence behind ∧
        before.toList.all isParameter = true ∧ behind.toList.all isParameter = true)) ∧
    (∀ ink quiet,
      (r.Unescaped → bleach (report ⟨ink, quiet⟩ r).toList = (report ⟨.plain, quiet⟩ r).toList) ∧
      (m.Unescaped →
        bleach (multiReport ⟨ink, quiet⟩ m).toList = (multiReport ⟨.plain, quiet⟩ m).toList)) ∧
    (∀ ink quiet, (report ⟨ink, quiet⟩ r).toList = Part.print ink (r.shown quiet) ∧
      (multiReport ⟨ink, quiet⟩ m).toList = Part.print ink (m.shown quiet)) ∧
    (r.shown false = r.parts ∧ r.shown true = r.parts.filter (fun part ↦ !part.isValidEntry) ∧
      m.shown false = m.parts ∧ m.shown true =
        m.parts.filter fun part ↦ !(part.isOfPassing || part.isValidEntry)) ∧
    (∀ ink quiet r c, c.isValid = true → ∃ line, blockLines ⟨ink, quiet⟩ c = [line] ∧
      (Part.block r c).lines ink = [line] ∧ '\n' ∉ line.toList) ∧
    (∀ ink r c error, c.verdict.error? = some error →
      ∃ rows, Text.Rowed error.toList rows ∧ (Part.block r c).lines ink =
        ("  " ++ ink.paint .red "✗" ++ blockFacts c) :: rows.map fun row ↦
          "      " ++ ink.paint .red (String.ofList row)) ∧
    (∀ quiet, r.essentials.Sublist (r.shown quiet) ∧ m.essentials.Sublist (m.shown quiet)) ∧
    ∀ quiet,
      (r.shown quiet).countP Part.isInvalidEntry = r.invalidCount ∧
      (m.shown quiet).countP Part.isInvalidEntry = m.summary.totalInvalid := by
  intro r m
  have hr : r.Counted := Report.ofBlocks_counted source checked
  have hm : ∀ r ∈ m.files, r.Counted := by
    intro r hmem
    obtain ⟨d, -, rfl⟩ := List.mem_map.mp hmem
    exact Report.ofBlocks_counted d.1 d.2
  have hsums : m.summary.Sums m.files := Summary.ofReports_sums (Report.ofEach docs)
  have hreport (ink : Ink) (quiet : Bool) :
      (report ⟨ink, quiet⟩ r).toList = Part.print ink (r.shown quiet) := r.toList_report ink quiet
  have hmulti (ink : Ink) (quiet : Bool) :
      (multiReport ⟨ink, quiet⟩ m).toList = Part.print ink (m.shown quiet) :=
    m.toList_multiReport ink quiet
  refine ⟨fun ink style text ↦ ⟨paint_plain style text, fun hink ↦ ?_⟩,
    fun ink quiet ↦ ⟨fun hplain ↦ ?_, fun hplain ↦ ?_⟩,
    fun ink quiet ↦ ⟨hreport ink quiet, hmulti ink quiet⟩, ⟨rfl, rfl, rfl, rfl⟩,
    fun ink quiet r c hvalid ↦ ?_, fun ink r c error herror ↦ ?_, fun quiet ↦ ⟨?_, ?_⟩,
    fun quiet ↦ ⟨?_, ?_⟩⟩
  · obtain ⟨before, behind, haround, hparameters⟩ := around_of_ne_plain hink style
    exact ⟨before, behind, by rw [paint, haround], hparameters⟩
  · rw [hreport, hreport]
    exact Part.bleach_print ink fun part hpart ↦
      Report.unescaped_of_mem_parts hplain (Report.shown_subset hpart)
  · rw [hmulti, hmulti]
    exact Part.bleach_print ink fun part hpart ↦
      MultiReport.unescaped_of_mem_parts hplain (MultiReport.shown_subset hpart)
  · have hline : (Part.block r c).lines ink = ["  " ++ ink.paint .green "✓" ++ blockFacts c] := by
      simp only [Part.lines, hvalid, if_true, reasons_of_isValid hvalid, List.map_nil]
    refine ⟨_, (blockLines_eq ink quiet r c).trans hline, hline, ?_⟩
    exact Part.feed_not_mem_lines_block ink r c (hline ▸ List.mem_singleton_self _)
  · refine ⟨Text.rows error.toList, Text.rowed_rows error.toList, ?_⟩
    simp only [Part.lines, isValid_of_error herror, Bool.false_eq_true, if_false,
      reasons_of_error herror, List.map_map, Function.comp_def]
  · rw [← hr.filter_shown quiet]
    exact List.filter_sublist
  · rw [← MultiReport.filter_shown hm quiet]
    exact List.filter_sublist
  · rw [← countP_isInvalidEntry_filter, hr.filter_shown, hr.countP_essentials]
  · rw [← countP_isInvalidEntry_filter, MultiReport.filter_shown hm,
      MultiReport.countP_essentials hm hsums]

/-- A block with a reason of three lines, the second one empty. Its code holds an escape, which is
not printed. -/
def gappedBlock : CheckedBlock :=
  ⟨⟨0, 2, 4, "pie\x1b[31m"⟩, .failed "line 1:\n\n  found \"-\"" .zero, none⟩

/-- A block that is in order. -/
def calmBlock : CheckedBlock := ⟨⟨1, 8, 9, "graph TD"⟩, .passed .zero, none⟩

theorem renderings_agree_gapped :
    let checked := [gappedBlock, calmBlock]
    let r := Report.ofBlocks "docs/a [1m.md" checked
    let m := MultiReport.ofReports (Report.ofEach [("a.md", checked), ("b.md", [calmBlock])])
      [⟨"c.md", "permission denied"⟩]
    r.Unescaped ∧ m.Unescaped ∧ calmBlock.isValid = true ∧
      gappedBlock.verdict.error? = some "line 1:\n\n  found \"-\"" ∧
      bleach (report ⟨.vivid, true⟩ r).toList = (report ⟨.plain, true⟩ r).toList ∧
      bleach (multiReport ⟨.pale, false⟩ m).toList = (multiReport ⟨.plain, false⟩ m).toList ∧
      (∃ line, blockLines ⟨.vivid, false⟩ calmBlock = [line] ∧ '\n' ∉ line.toList) ∧
      (report ⟨.plain, true⟩ r).toList =
        Part.print .plain [.heading r, .block r gappedBlock, .totals r] ∧
      (Part.block r gappedBlock).lines .plain = ["  ✗" ++ blockFacts gappedBlock,
        "      line 1:", "      ", "        found \"-\""] := by
  intro checked r m
  have herror : gappedBlock.verdict.error? = some "line 1:\n\n  found \"-\"" := by
    decide +kernel
  have hescape : escape ∉ "line 1:\n\n  found \"-\"".toList := by
    decide +kernel
  have hchecked : ∀ c ∈ checked, ReasonUnescaped c := by
    intro c hc error hreason
    rcases List.mem_pair.mp hc with rfl | rfl
    · rw [herror] at hreason
      rwa [← Option.some.inj hreason]
    · exact absurd hreason (by simp [calmBlock, Verdict.error?, Verdict.passed])
  have hcalm : ∀ c ∈ [calmBlock], ReasonUnescaped c :=
    fun c hc ↦ hchecked c (List.mem_cons_of_mem gappedBlock hc)
  have hr : r.Unescaped := ⟨by decide +kernel, hchecked⟩
  have hm : m.Unescaped := by
    refine ⟨fun r hr ↦ ?_, fun f hf ↦ ?_⟩
    · rcases List.mem_pair.mp hr with rfl | rfl
      · exact ⟨by decide +kernel, hchecked⟩
      · exact ⟨by decide +kernel, hcalm⟩
    · rw [List.mem_singleton.mp hf]
      exact ⟨by decide +kernel, by decide +kernel⟩
  have hrows : (Text.rows "line 1:\n\n  found \"-\"".toList).map
      (fun row ↦ "      " ++ Ink.plain.paint .red (String.ofList row)) =
        ["      line 1:", "      ", "        found \"-\""] := by
    decide +kernel
  obtain ⟨-, hbleach, hprinted, -, hline, hreasons, -⟩ := renderings_agree "docs/a [1m.md" checked
    [("a.md", checked), ("b.md", [calmBlock])] [⟨"c.md", "permission denied"⟩]
  obtain ⟨line, hlines, -, hfeed⟩ := hline .vivid false r calmBlock rfl
  refine ⟨hr, hm, rfl, herror, (hbleach .vivid true).1 hr, (hbleach .pale false).2 hm,
    ⟨line, hlines, hfeed⟩, (hprinted .plain true).1, ?_⟩
  obtain ⟨rows, hrowed, hblock⟩ := hreasons .plain r gappedBlock _ herror
  rw [hblock, hrowed.eq_rows, hrows]
  exact congrArg₂ _ (congrArg (· ++ _) (by decide +kernel)) rfl

end Renderings

end FenceLint
