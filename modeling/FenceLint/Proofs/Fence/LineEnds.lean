import FenceLint.Proofs.Checker.Step
import FenceLint.Proofs.Fence.Seam
import Mathlib.Data.List.Basic

/-!
Documents with line ends of two styles. A line feed may have a carriage return in front of it, one
by one and without regard to the others: the lines of the text stay the same
(`map_dropReturn_withReturns`), and all that a scan meets depends on the lines alone. A carriage
return anywhere else in a line is content.
-/

set_option autoImplicit false

namespace FenceLint

namespace Text

/-- A text with a carriage return put in front of each character at a chosen position. -/
def withReturns : (Nat → Bool) → List Char → List Char
  | _, [] => []
  | chosen, c :: rest =>
    (if chosen 0 then ['\r', c] else [c]) ++ withReturns (fun i ↦ chosen (i + 1)) rest

/-- Behind some text, only line feeds are chosen, and none that has a carriage return in front of it
already. -/
def LoneFeeds (chosen : Nat → Bool) (front cs : List Char) : Prop :=
  ∀ i, chosen i = true → cs[i]? = some '\n' ∧ (front ++ cs.take i).getLast? ≠ some '\r'

section

variable {chosen : Nat → Bool} {front rest : List Char} {c : Char}

/-- A line goes on with its next character. -/
theorem LoneFeeds.within (h : LoneFeeds chosen front (c :: rest)) :
    LoneFeeds (fun i ↦ chosen (i + 1)) (front ++ [c]) rest := by
  intro i hi
  obtain ⟨hfeed, hlone⟩ := h (i + 1) hi
  refine ⟨hfeed, ?_⟩
  rwa [List.append_assoc, List.singleton_append, ← List.take_succ_cons]

/-- Behind a line feed a line begins, and what stands before it counts no more. -/
theorem LoneFeeds.below (h : LoneFeeds chosen front ('\n' :: rest)) :
    LoneFeeds (fun i ↦ chosen (i + 1)) [] rest := by
  intro i hi
  obtain ⟨hfeed, hlone⟩ := h (i + 1) hi
  refine ⟨hfeed, fun hlast ↦ hlone ?_⟩
  rw [List.nil_append] at hlast
  rw [List.take_succ_cons, List.getLast?_append, List.getLast?_cons, hlast]
  rfl

/-- One carriage return comes off the end of a line. -/
theorem dropReturn_concat (line : List Char) : dropReturn (line ++ ['\r']) = line := by
  unfold dropReturn
  rw [if_pos List.getLast?_concat, List.dropLast_concat]

/-- A line that does not end in a carriage return stays as it is. -/
theorem dropReturn_of_ne {line : List Char} (h : line.getLast? ≠ some '\r') :
    dropReturn line = line := by
  unfold dropReturn
  rw [if_neg h]

/-- What comes off a line comes off its end: all that stands before another character stays. -/
theorem dropReturn_append (front : List Char) {back : List Char} (h : back ≠ []) :
    dropReturn (front ++ back) = front ++ dropReturn back := by
  unfold dropReturn
  rw [List.getLast?_append_of_ne_nil front h]
  by_cases hreturn : back.getLast? = some '\r'
  · rw [if_pos hreturn, if_pos hreturn, List.dropLast_append_of_ne_nil h]
  · rw [if_neg hreturn, if_neg hreturn]

end

/-- The lines below a line that has no line feed in it. -/
theorem map_dropReturn_segments {line : List Char} (h : '\n' ∉ line) (rest : List Char) :
    (segments (line ++ '\n' :: rest)).map dropReturn =
      dropReturn line :: (segments rest).map dropReturn := by
  unfold segments
  rw [pieces_append_cons, pieces_of_not_mem h, List.singleton_append, List.map_cons]

/-- Carriage returns in front of lone line feeds are no part of any line. The induction goes along
the text, with the part of the current line that has been read in front of it. -/
theorem map_dropReturn_withReturns {chosen : Nat → Bool} {front cs : List Char}
    (hfront : '\n' ∉ front) (h : LoneFeeds chosen front cs) :
    (segments (front ++ withReturns chosen cs)).map dropReturn =
      (segments (front ++ cs)).map dropReturn := by
  induction cs generalizing chosen front with
  | nil => rfl
  | cons c rest ih =>
    unfold withReturns
    by_cases hfeed : c = '\n'
    · subst hfeed
      have hrest := ih List.not_mem_nil h.below
      rw [List.nil_append, List.nil_append] at hrest
      rw [map_dropReturn_segments hfront]
      by_cases hchosen : chosen 0 = true
      · have hlast : front.getLast? ≠ some '\r' := by
          simpa using (h 0 hchosen).2
        have hline : '\n' ∉ front ++ ['\r'] := by
          simp [hfront]
        have hsplit : front ++ (['\r', '\n'] ++ withReturns (fun i ↦ chosen (i + 1)) rest) =
            (front ++ ['\r']) ++ '\n' :: withReturns (fun i ↦ chosen (i + 1)) rest := by
          simp
        rw [if_pos hchosen, hsplit, map_dropReturn_segments hline, dropReturn_concat,
          dropReturn_of_ne hlast, hrest]
      · rw [if_neg hchosen, List.singleton_append, map_dropReturn_segments hfront, hrest]
    · -- A character that is no line feed is not chosen, and goes to the line in front.
      have hchosen : ¬chosen 0 = true := by
        intro hchosen
        exact hfeed (Option.some.inj (h 0 hchosen).1)
      have hline : '\n' ∉ front ++ [c] := by
        simp [hfront, Ne.symm hfeed]
      have hrest := ih hline h.within
      rw [List.append_assoc, List.append_assoc, List.singleton_append] at hrest
      rwa [if_neg hchosen]

end Text

/-- What a text comes to depends on its blocks alone. -/
theorem Scene.checkText_congr {ω π : Type} (b : Backend ω π) (source : String) (s : Scene ω π)
    {text other : String}
    (h : Fence.extract s.checker.language other = Fence.extract s.checker.language text) :
    ((checkText b source other).run s).value = ((checkText b source text).run s).value ∧
      ((checkText b source other).run s).state = ((checkText b source text).run s).state := by
  by_cases hnone : Fence.extract s.checker.language text = []
  · obtain ⟨hvalue, hstate⟩ := checkText_empty b source hnone
    obtain ⟨hvalue', hstate'⟩ := checkText_empty b source (h.trans hnone)
    exact ⟨hvalue'.trans hvalue.symm, hstate'.trans hstate.symm⟩
  · obtain ⟨hvalue, hstate⟩ := checkText_blocks b source hnone
    obtain ⟨hvalue', hstate'⟩ := checkText_blocks b source (h ▸ hnone)
    rw [h] at hvalue' hstate'
    exact ⟨hvalue'.trans hvalue.symm, hstate'.trans hstate.symm⟩

namespace Fence

/-- The content of a block are the lines between its fences, each one less a carriage return at its
end. -/
theorem code_of_mem_extract {language text : String} {block : Block}
    (h : block ∈ extract language text) :
    block.code.toList = Text.joinLines ((between (Text.segments text.toList) (block.lineStart - 1)
      block.lineEnd).map Text.dropReturn) := by
  obtain ⟨spans, -, hblocks⟩ := exists_greedy_extract language text
  rw [hblocks] at h
  obtain ⟨⟨span, index⟩, -, rfl⟩ := List.mem_map.mp h
  simp only [blockAt, between, linesOf, String.toList_ofList, Nat.add_sub_cancel, List.map_drop,
    List.map_take]

/-- Any line feeds of a text that have no carriage return in front of them may get one. What a scan
meets stays the same, and with it the blocks, the warning about a block that is dropped, and all
that checking the text comes to. The carriage return before a line feed is no content; one that
anything else follows on its line is. -/
theorem extract_withReturns (language text : String) {chosen : Nat → Bool}
    (h : Text.LoneFeeds chosen [] text.toList) :
    let other := String.ofList (Text.withReturns chosen text.toList)
    marks language other = marks language text ∧
    extract language other = extract language text ∧
    (∀ {σ : Type} (s : σ), Log.eventsFrom .warn ((extraction language other).run s).log =
      Log.eventsFrom .warn ((extraction language text).run s).log) ∧
    (∀ {ω π : Type} (b : Backend ω π) (source : String) (s : Scene ω π),
      ((Scene.checkText b source other).run s).value =
          ((Scene.checkText b source text).run s).value ∧
        ((Scene.checkText b source other).run s).state =
          ((Scene.checkText b source text).run s).state) ∧
    (∀ block ∈ extract language text,
      block.code.toList = Text.joinLines ((between (Text.segments text.toList)
        (block.lineStart - 1) block.lineEnd).map Text.dropReturn)) ∧
    ∀ front back : List Char, back ≠ [] →
      Text.dropReturn (front ++ '\r' :: back) = front ++ '\r' :: Text.dropReturn back := by
  intro other
  have hlines : linesOf other = linesOf text := by
    have hsame := Text.map_dropReturn_withReturns List.not_mem_nil h
    rw [List.nil_append, List.nil_append] at hsame
    rw [linesOf, linesOf, String.toList_ofList, hsame]
  have hmarks (tag : String) : marks tag other = marks tag text := by
    rw [marks, marks, hlines]
  have hextract (tag : String) : extract tag other = extract tag text := by
    rw [extract, extract, hmarks]
  refine ⟨hmarks language, hextract language, ?_, ?_, fun block ↦ code_of_mem_extract, ?_⟩
  · intro σ s
    rw [eventsFrom_extraction, eventsFrom_extraction, hmarks]
  · intro ω π b source s
    exact Scene.checkText_congr b source s (hextract s.checker.language)
  · intro front back hback
    have hkept := Text.dropReturn_append (front ++ ['\r']) hback
    rwa [List.append_assoc, List.append_assoc, List.singleton_append,
      List.singleton_append] at hkept

/-- The first and the third line of a text get a carriage return. The second line holds one from the
start, and the last line opens a fence that never closes. -/
theorem extract_withReturns_mixed :
    let text := "\x60\x60\x60mermaid\npie\rchart\n\x60\x60\x60\n\x60\x60\x60mermaid"
    let chosen : Nat → Bool := fun i ↦ i == 10 || i == 24
    let other := String.ofList (Text.withReturns chosen text.toList)
    Text.LoneFeeds chosen [] text.toList ∧
      other = "\x60\x60\x60mermaid\r\npie\rchart\n\x60\x60\x60\r\n\x60\x60\x60mermaid" ∧
      marks "mermaid" other =
        [.opened 1, .closed ⟨0, 2, 3, "pie\rchart"⟩, .opened 4, .dropped 4] := by
  intro text chosen other
  have hlone : Text.LoneFeeds chosen [] text.toList := by
    intro i hi
    rcases Bool.or_eq_true_iff.mp hi with hfirst | hthird
    · rw [beq_iff_eq.mp hfirst]
      decide
    · rw [beq_iff_eq.mp hthird]
      decide
  refine ⟨hlone, ?_, (extract_withReturns "mermaid" text hlone).1.trans ?_⟩
  · rw [← String.toList_inj, String.toList_ofList]
    decide
  · decide

end Fence

end FenceLint
