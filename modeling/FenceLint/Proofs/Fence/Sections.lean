import FenceLint.Proofs.Fence.Seam

/-!
Putting text into fences. A sheet is made of sections, each a body between two fences with prose
above it, and of prose below the last one. Extraction undoes this: it gives one block for each
section, with its body and with the numbers of the lines that it takes up (`extract_sheet`). A body
may look like anything but the bare fence, and blanks around a fence change nothing. What can go
wrong is the language tag alone: no line trims to a fence with a tag that holds a line feed or ends
in a blank, so such a fence never opens.
-/

set_option autoImplicit false

namespace FenceLint.Fence

/-- A language tag that a trimmed line can end in. -/
structure Fits (language : String) : Prop where
  oneLine : '\n' ∉ language.toList
  solid : ∀ c ∈ language.toList.getLast?, Text.isBlank c = false

/-- What stands on a line around a fence. -/
structure Padding where
  left : List Char
  right : List Char
  blank : ∀ c ∈ left ++ right, Text.isBlank c = true
  oneLine : '\n' ∉ left ++ right

/-- A line with a fence on it. -/
def Padding.around (padding : Padding) (mark : List Char) : List Char :=
  padding.left ++ mark ++ padding.right

/-- A line on which no fence opens. A carriage return at its end is of no account. -/
def IsProse (language : String) (line : List Char) : Prop :=
  '\n' ∉ line ∧ ¬ Opens language line

/-- A line that stands in a block as it is written. -/
def IsBody (line : List Char) : Prop :=
  '\n' ∉ line ∧ line.getLast? ≠ some '\r' ∧ ¬ Closes line

section Decidable

variable {language : String} {line : List Char}

instance : Decidable (Opens language line) := inferInstanceAs (Decidable (_ = _))

instance : Decidable (Closes line) := inferInstanceAs (Decidable (_ = _))

instance : Decidable (IsProse language line) := inferInstanceAs (Decidable (_ ∧ _))

instance : Decidable (IsBody line) := inferInstanceAs (Decidable (_ ∧ _))

end Decidable

/-- A body between two fences, with prose above it. -/
structure Section (language : String) where
  prose : List (List Char)
  opening : Padding
  body : List (List Char)
  closing : Padding
  isProse : ∀ line ∈ prose, IsProse language line
  isBody : ∀ line ∈ body, IsBody line

namespace Section

variable {language : String}

def lines (s : Section language) : List (List Char) :=
  s.prose ++ s.opening.around (opener language) :: (s.body ++ [s.closing.around fence])

/-- The block of a section with so many blocks and so many lines above it. -/
def block (s : Section language) (blocks above : Nat) : Block :=
  ⟨blocks, above + s.prose.length + 2, above + s.prose.length + s.body.length + 2,
    String.ofList (Text.joinLines s.body)⟩

end Section

/-- Sections one below the other, and prose below the last one. -/
structure Sheet (language : String) where
  sections : List (Section language)
  tail : List (List Char)
  isProse : ∀ line ∈ tail, IsProse language line

namespace Sheet

variable {language : String}

def lines (sheet : Sheet language) : List (List Char) :=
  sheet.sections.flatMap Section.lines ++ sheet.tail

def text (sheet : Sheet language) : String :=
  String.ofList (Text.joinLines sheet.lines)

/-- The blocks of the sections, each numbered by the sections and the lines above it. -/
def blocks (sheet : Sheet language) : List Block :=
  sheet.sections.mapIdx fun i s ↦
    s.block i ((sheet.sections.take i).flatMap Section.lines).length

end Sheet

section Lines

variable {language : String} {line : List Char}

theorem trim_dropReturn (line : List Char) : Text.trim (Text.dropReturn line) = Text.trim line := by
  rw [Text.dropReturn]
  split
  · next hlast =>
    obtain ⟨front, rfl⟩ := List.getLast?_eq_some_iff.mp hlast
    rw [List.dropLast_concat, Text.trim_append_blank (List.all_eq_true.mp rfl)]
  · rfl

theorem opens_dropReturn : Opens language (Text.dropReturn line) ↔ Opens language line := by
  rw [Opens, trim_dropReturn, Opens]

theorem closes_dropReturn : Closes (Text.dropReturn line) ↔ Closes line := by
  rw [Closes, trim_dropReturn, Closes]

theorem not_opens_of_isProse {lines : List (List Char)} (h : ∀ line ∈ lines, IsProse language line) :
    ∀ line ∈ lines.map Text.dropReturn, ¬ Opens language line := by
  intro line hline
  obtain ⟨written, hwritten, rfl⟩ := List.mem_map.mp hline
  rw [opens_dropReturn]
  exact (h written hwritten).2

theorem IsBody.dropReturn_eq (h : IsBody line) : Text.dropReturn line = line :=
  if_neg h.2.1

/-- A fence shows through the blanks around it, as long as what is written there ends in none. -/
theorem Padding.trim_around (padding : Padding) {tag : List Char}
    (hlast : ∀ c ∈ tag.getLast?, Text.isBlank c = false) :
    Text.trim (padding.around (fence ++ tag)) = fence ++ tag := by
  have hleft : ∀ c ∈ padding.left, Text.isBlank c = true :=
    fun c hc ↦ padding.blank c (List.mem_append_left _ hc)
  have hright : ∀ c ∈ padding.right, Text.isBlank c = true :=
    fun c hc ↦ padding.blank c (List.mem_append_right _ hc)
  have htick : ∀ c ∈ fence, Text.isBlank c = false := by simp [fence, Text.isBlank]
  rw [around, Text.trim_append_blank hright, Text.trim_blank_append hleft]
  apply Text.trim_eq_self
  · intro c hc
    exact htick c (List.mem_of_mem_head? (Option.mem_def.mpr hc))
  · intro c hc
    rw [List.getLast?_append, Option.or_eq_some_iff] at hc
    rcases hc with htag | ⟨-, hfence⟩
    · exact hlast c htag
    · exact htick c (List.mem_of_getLast? hfence)

theorem Padding.opens_around (padding : Padding) (hfits : Fits language) :
    Opens language (padding.around (opener language)) :=
  padding.trim_around hfits.solid

theorem Padding.closes_around (padding : Padding) : Closes (padding.around fence) := by
  have htrim := @Padding.trim_around padding [] nofun
  rwa [List.append_nil] at htrim

/-- A tag that does not fit stands on no line. -/
theorem not_opens_of_not_fits (hfits : ¬ Fits language) (hline : '\n' ∉ line) :
    ¬ Opens language line := by
  intro hopens
  refine hfits ⟨fun hfeed ↦ hline ?_, fun c hc ↦ ?_⟩
  · apply Text.mem_of_mem_trim
    rw [hopens]
    exact List.mem_append_right fence hfeed
  · have hlast : (Text.trim line).getLast? = some c := by
      rw [hopens, opener, List.getLast?_append, Option.mem_def.mp hc]
      rfl
    exact Text.isBlank_of_getLast?_trim hlast

end Lines

section Scan

variable {language : String}

theorem Padding.not_mem_around (padding : Padding) {mark : List Char} (h : '\n' ∉ mark) :
    '\n' ∉ padding.around mark := by
  rw [around, List.mem_append, List.mem_append, not_or, not_or]
  exact ⟨⟨fun hleft ↦ padding.oneLine (List.mem_append_left _ hleft), h⟩,
    fun hright ↦ padding.oneLine (List.mem_append_right _ hright)⟩

theorem Section.not_mem_line (s : Section language) (hfits : Fits language) {line : List Char}
    (hline : line ∈ s.lines) : '\n' ∉ line := by
  rw [Section.lines, List.mem_append, List.mem_cons, List.mem_append, List.mem_singleton] at hline
  rcases hline with hprose | rfl | hbody | rfl
  · exact (s.isProse line hprose).1
  · apply s.opening.not_mem_around
    rw [opener, List.mem_append, not_or]
    exact ⟨by decide, hfits.oneLine⟩
  · exact (s.isBody line hbody).1
  · exact s.closing.not_mem_around (by decide)

theorem Sheet.not_mem_line (sheet : Sheet language) (hfits : Fits language) {line : List Char}
    (hline : line ∈ sheet.lines) : '\n' ∉ line := by
  rw [Sheet.lines, List.mem_append, List.mem_flatMap] at hline
  rcases hline with ⟨s, -, hs⟩ | htail
  · exact s.not_mem_line hfits hs
  · exact (sheet.isProse line htail).1

/-- Outside a fence, a section gives its block and leaves the scan outside again. -/
theorem Section.scan_lines (s : Section language) (hfits : Fits language) (above blocks : Nat)
    (rest : List (List Char)) :
    (scan (opener language) (above + 1) blocks .outside
        (s.lines.map Text.dropReturn ++ rest)).filterMap Mark.block? =
      s.block blocks above :: (scan (opener language) (above + s.lines.length + 1) (blocks + 1)
        .outside rest).filterMap Mark.block? := by
  have hbody : s.body.map Text.dropReturn = s.body := by
    rw [List.map_congr_left fun line hline ↦ (s.isBody line hline).dropReturn_eq, List.map_id']
  have hopens := opens_dropReturn.mpr (s.opening.opens_around hfits)
  have hcloses := closes_dropReturn.mpr s.closing.closes_around
  have hlines : s.lines.map Text.dropReturn ++ rest = s.prose.map Text.dropReturn ++
      Text.dropReturn (s.opening.around (opener language)) ::
        (s.body ++ Text.dropReturn (s.closing.around fence) :: rest) := by
    simp [Section.lines, hbody]
  have hopened : above + 1 + s.prose.length + 1 = above + s.prose.length + 2 := by omega
  have hclosed : above + s.prose.length + 2 + s.body.length =
      above + s.prose.length + s.body.length + 2 := by omega
  have hlength : above + s.lines.length = above + s.prose.length + s.body.length + 2 := by
    simp [Section.lines]
    omega
  rw [hlines, scan_outside_append (not_opens_of_isProse s.isProse), scan_of_opens hopens,
    scan_inside_append fun line hline ↦ (s.isBody line hline).2.2, scan_of_closes hcloses,
    List.filterMap_cons_none rfl, List.filterMap_cons_some (f := Mark.block?) rfl, List.append_nil,
    List.reverse_reverse, List.length_map, hlength, hopened, hclosed, Section.block]

/-- Sections give their blocks, from wherever the first of them stands. -/
theorem blocks_of_scan_sections (sections : List (Section language)) (hfits : Fits language)
    (above blocks : Nat) (rest : List (List Char)) (hrest : ∀ line ∈ rest, ¬ Opens language line) :
    (scan (opener language) (above + 1) blocks .outside
        ((sections.flatMap Section.lines).map Text.dropReturn ++ rest)).filterMap Mark.block? =
      sections.mapIdx fun i s ↦
        s.block (blocks + i) (above + ((sections.take i).flatMap Section.lines).length) := by
  induction sections generalizing above blocks with
  | nil =>
    have hend := @scan_outside_append language (above + 1) blocks rest hrest []
    rw [List.append_nil] at hend
    rw [List.flatMap_nil, List.map_nil, List.nil_append, hend]
    rfl
  | cons s sections ih =>
    rw [List.flatMap_cons, List.map_append, List.append_assoc, s.scan_lines hfits, ih,
      List.mapIdx_cons]
    congr 1
    refine congrArg (List.mapIdx · sections) (funext fun i ↦ funext fun t ↦ ?_)
    rw [List.take_succ_cons, List.flatMap_cons, List.length_append, Nat.add_assoc above,
      Nat.add_right_comm blocks 1 i, Nat.add_assoc blocks i 1]

end Scan

section Sheets

variable {language : String}

/-- The lines of a sheet are scanned as they were put together. Without any line there is still the
empty one, on which no fence opens. -/
theorem Sheet.extract_text (sheet : Sheet language) (hfits : Fits language) :
    extract language sheet.text =
      (scan (opener language) 1 0 .outside (sheet.lines.map Text.dropReturn)).filterMap
        Mark.block? := by
  by_cases hlines : sheet.lines = []
  · have hempty : linesOf sheet.text = [[]] := by
      rw [Sheet.text, hlines]
      rfl
    rw [extract, marks, hempty, scan_of_not_opens not_opens_nil, hlines]
    rfl
  · have hsegments : Text.segments sheet.text.toList = sheet.lines := by
      rw [Sheet.text, String.toList_ofList]
      exact segments_joinLines hlines fun line hline ↦ sheet.not_mem_line hfits hline
    rw [extract, marks, linesOf, hsegments]

/-- A tag that does not fit has no blocks in any text. -/
theorem extract_of_not_fits (hfits : ¬ Fits language) (text : String) :
    extract language text = [] := by
  have hnone : ∀ line ∈ linesOf text, ¬ Opens language line := by
    intro line hline
    obtain ⟨written, hwritten, rfl⟩ := List.mem_map.mp hline
    rw [opens_dropReturn]
    exact not_opens_of_not_fits hfits (Text.not_mem_of_mem_pieces hwritten)
  rw [extract, marks, ← List.append_nil (linesOf text), scan_outside_append hnone]
  rfl

/-- Extraction undoes fencing: of whatever sections a sheet is made, their blocks are what is found
in its text, one for each, in order. A tag that holds a line feed or ends in a blank is found in no
text at all. -/
theorem extract_sheet (language : String) :
    (Fits language → ∀ sheet : Sheet language, extract language sheet.text = sheet.blocks) ∧
    (¬ Fits language → ∀ text, extract language text = []) := by
  refine ⟨fun hfits sheet ↦ ?_, extract_of_not_fits⟩
  have hblocks := blocks_of_scan_sections sheet.sections hfits 0 0 _
    (not_opens_of_isProse sheet.isProse)
  rw [sheet.extract_text hfits, Sheet.lines, List.map_append, hblocks, Sheet.blocks]
  simp only [Nat.zero_add]

/-- A sheet of two sections: a bare fence in the prose, fences of other kinds and the opener itself
in the first body, no line at all in the second one, and no two fences padded alike. -/
def nested : Sheet "mermaid" where
  sections := [
    { prose := ["A chart:".toList, "\x60\x60\x60\r".toList]
      opening := ⟨"\u3000".toList, "\t\r".toList, List.all_eq_true.mp rfl, by decide⟩
      body := ["\x60\x60\x60\x60".toList, "  \x60\x60\x60mermaid".toList, [], "\x60\x60\x60text".toList]
      closing := ⟨"\u00a0".toList, [], List.all_eq_true.mp rfl, by decide⟩
      isProse := by decide
      isBody := by decide },
    { prose := []
      opening := ⟨[], [], List.all_eq_true.mp rfl, by decide⟩
      body := []
      closing := ⟨"\u2029 ".toList, "\u000b".toList, List.all_eq_true.mp rfl, by decide⟩
      isProse := by decide
      isBody := by decide }]
  tail := ["\x60\x60\x60 mermaid".toList]
  isProse := by decide

theorem extract_sheet_nested :
    (Fits "mermaid" ∧ extract "mermaid" nested.text =
      [⟨0, 4, 8, "\x60\x60\x60\x60\n  \x60\x60\x60mermaid\n\n\x60\x60\x60text"⟩, ⟨1, 10, 10, ""⟩]) ∧
    ¬ Fits "mermaid\r" ∧ extract "mermaid\r" nested.text = [] := by
  have hfits : Fits "mermaid" := ⟨by decide, by simp [Text.isBlank]⟩
  have hreturn : ¬ Fits "mermaid\r" := fun h ↦ absurd (h.solid '\r' (by decide)) (by decide)
  have hblocks := (extract_sheet "mermaid").1 hfits nested
  refine ⟨⟨hfits, hblocks.trans (by decide)⟩, hreturn, (extract_sheet "mermaid\r").2 hreturn _⟩

end Sheets

end FenceLint.Fence
