import FenceLint.Proofs.Fence.Decomposition
import Mathlib.Data.Nat.Find

/-!
Texts put one below the other. A scan carries nothing across a seam but the place where it stands
(`Place.after`), the number of the next line and the number of the next block. So behind a text that
ends outside a fence another text is scanned as if it stood alone, only further down, and behind one
that ends inside a fence the other text goes on with the block until it closes.
-/

set_option autoImplicit false

namespace FenceLint

/-- The block with so many blocks and so many lines put above its text. -/
def Block.moved (blocks lines : Nat) (b : Block) : Block :=
  ⟨b.index + blocks, b.lineStart + lines, b.lineEnd + lines, b.code⟩

namespace Fence

namespace Place

/-- Where the scan stands after one more line. -/
def next (openMark : List Char) (line : Nat) : Place → List Char → Place
  | .outside, text => if Text.trim text = openMark then .inside line [] else .outside
  | .inside opened body, text =>
    if Text.trim text = fence then .outside else .inside opened (text :: body)

/-- Where the scan stands after some lines, the first of which has number `line`. -/
def after (openMark : List Char) : Nat → Place → List (List Char) → Place
  | _, place, [] => place
  | line, place, text :: rest => (place.next openMark line text).after openMark (line + 1) rest

/-- The place with so many lines put above it. -/
def moved (lines : Nat) : Place → Place
  | .outside => .outside
  | .inside opened body => .inside (opened + lines) body

/-- What the end of the text makes of a place. -/
def left : Place → List Mark
  | .outside => []
  | .inside opened _ => [.dropped opened]

end Place

/-- Where the scan of a text stands at its end. -/
def ending (language text : String) : Place :=
  Place.after (opener language) 1 .outside (linesOf text)

/-- The mark with so many blocks and so many lines put above it. -/
def Mark.moved (blocks lines : Nat) : Mark → Mark
  | .opened line => .opened (line + lines)
  | .closed block => .closed (block.moved blocks lines)
  | .dropped line => .dropped (line + lines)

/-- What stands behind line `c` of a text. -/
def behind (c : Nat) (text : String) : String :=
  String.ofList (Text.joinLines ((Text.segments text.toList).drop c))

section Lines

theorem segments_joinLines {lines : List (List Char)} (hne : lines ≠ [])
    (h : ∀ line ∈ lines, '\n' ∉ line) : Text.segments (Text.joinLines lines) = lines :=
  Text.pieces_glue hne h

/-- The lines of two texts with a line feed between them. -/
theorem linesOf_append (a b : String) :
    linesOf (a ++ "\n" ++ b) = linesOf a ++ linesOf b := by
  have htext : (a ++ "\n" ++ b).toList = a.toList ++ '\n' :: b.toList := by simp
  rw [linesOf, htext, Text.segments, Text.pieces_append_cons, List.map_append]
  rfl

theorem linesOf_behind {c : Nat} {text : String} (hc : c < (linesOf text).length) :
    linesOf (behind c text) = (linesOf text).drop c := by
  have hne : (Text.segments text.toList).drop c ≠ [] := by
    rw [ne_eq, List.drop_eq_nil_iff, Nat.not_le]
    rwa [linesOf, List.length_map] at hc
  have hfree : ∀ line ∈ (Text.segments text.toList).drop c, '\n' ∉ line := by
    intro line hline
    exact Text.not_mem_of_mem_pieces (List.mem_of_mem_drop hline)
  rw [linesOf, behind, String.toList_ofList, segments_joinLines hne hfree, linesOf, List.map_drop]

theorem linesOf_behind_all {c : Nat} {text : String} (hc : (linesOf text).length ≤ c) :
    linesOf (behind c text) = [[]] := by
  have hnone : (Text.segments text.toList).drop c = [] := by
    rw [List.drop_eq_nil_iff]
    rwa [linesOf, List.length_map] at hc
  rw [behind, hnone]
  rfl

end Lines

section Steps

variable {language : String} {n index o : Nat} {body : List (List Char)}

/-- Outside a fence a scan passes over lines on which none opens. -/
theorem scan_outside_append {prose : List (List Char)} (h : ∀ line ∈ prose, ¬ Opens language line)
    (rest : List (List Char)) :
    scan (opener language) n index .outside (prose ++ rest) =
      scan (opener language) (n + prose.length) index .outside rest := by
  induction prose generalizing n with
  | nil => rfl
  | cons line prose ih =>
    obtain ⟨hline, hprose⟩ := List.forall_mem_cons.mp h
    rw [List.cons_append, scan_of_not_opens hline, ih hprose, List.length_cons, Nat.add_assoc,
      Nat.add_comm 1]

/-- Inside a fence it gathers the lines on which the fence does not close. -/
theorem scan_inside_append {inner : List (List Char)} (h : ∀ line ∈ inner, ¬ Closes line)
    (rest : List (List Char)) :
    scan (opener language) n index (.inside o body) (inner ++ rest) =
      scan (opener language) (n + inner.length) index (.inside o (inner.reverse ++ body)) rest := by
  induction inner generalizing n body with
  | nil => rfl
  | cons line inner ih =>
    obtain ⟨hline, hinner⟩ := List.forall_mem_cons.mp h
    rw [List.cons_append, scan_of_not_closes hline, ih hinner, List.length_cons,
      List.reverse_cons, List.append_assoc, List.singleton_append, Nat.add_assoc, Nat.add_comm 1]

theorem next_of_opens {line : List Char} (h : Opens language line) :
    Place.next (opener language) n .outside line = .inside n [] :=
  if_pos h

theorem next_of_not_opens {line : List Char} (h : ¬ Opens language line) :
    Place.next (opener language) n .outside line = .outside :=
  if_neg h

theorem next_of_closes {line : List Char} (h : Closes line) :
    Place.next (opener language) n (.inside o body) line = .outside :=
  if_pos h

theorem next_of_not_closes {line : List Char} (h : ¬ Closes line) :
    Place.next (opener language) n (.inside o body) line = .inside o (line :: body) :=
  if_neg h

/-- No fence opens on an empty line. -/
theorem not_opens_nil : ¬ Opens language [] := by
  intro h
  exact nomatch (h : [] = fence ++ language.toList)

/-- Behind a line of a text a scan meets what is left of its lines. -/
theorem scan_behind (c : Nat) (text : String) :
    scan (opener language) n index .outside (linesOf (behind c text)) =
      scan (opener language) n index .outside ((linesOf text).drop c) := by
  by_cases hc : c < (linesOf text).length
  · rw [linesOf_behind hc]
  · rw [linesOf_behind_all (Nat.le_of_not_lt hc),
      List.drop_eq_nil_of_le (Nat.le_of_not_lt hc), scan_of_not_opens not_opens_nil]
    rfl

end Steps

section Seam

/-- A scan of some lines meets nothing that the lines below them could change, except for a fence
that is still open behind the last one. -/
theorem exists_scan_append (language : String) (n index : Nat) (place : Place)
    (lines : List (List Char)) :
    ∃ met, (∀ mark ∈ met, ∀ o, mark ≠ .dropped o) ∧ ∀ below,
      scan (opener language) n index place (lines ++ below) =
        met ++ scan (opener language) (n + lines.length)
          (index + (met.filterMap Mark.block?).length)
          (place.after (opener language) n lines) below := by
  induction lines generalizing n index place with
  | nil => exact ⟨[], nofun, fun _ ↦ rfl⟩
  | cons line lines ih =>
    have hlength : n + (line :: lines).length = n + 1 + lines.length := by
      rw [List.length_cons]
      omega
    cases place with
    | outside =>
      by_cases hopens : Opens language line
      · obtain ⟨met, hmet, hscan⟩ := ih (n + 1) index (.inside n [])
        refine ⟨.opened n :: met, List.forall_mem_cons.mpr ⟨nofun, hmet⟩, fun below ↦ ?_⟩
        rw [List.cons_append, scan_of_opens hopens, hscan below, hlength, Place.after,
          next_of_opens hopens, List.filterMap_cons_none rfl]
        rfl
      · obtain ⟨met, hmet, hscan⟩ := ih (n + 1) index .outside
        refine ⟨met, hmet, fun below ↦ ?_⟩
        rw [List.cons_append, scan_of_not_opens hopens, hscan below, hlength, Place.after,
          next_of_not_opens hopens]
    | inside o body =>
      by_cases hcloses : Closes line
      · obtain ⟨met, hmet, hscan⟩ := ih (n + 1) (index + 1) .outside
        let block : Block := ⟨index, o + 1, n, String.ofList (Text.joinLines body.reverse)⟩
        refine ⟨.closed block :: met, List.forall_mem_cons.mpr ⟨nofun, hmet⟩, fun below ↦ ?_⟩
        rw [List.cons_append, scan_of_closes hcloses, hscan below, hlength, Place.after,
          next_of_closes hcloses, List.filterMap_cons_some (f := Mark.block?) rfl,
          List.length_cons, Nat.add_assoc index 1, Nat.add_comm 1]
        rfl
      · obtain ⟨met, hmet, hscan⟩ := ih (n + 1) index (.inside o (line :: body))
        refine ⟨met, hmet, fun below ↦ ?_⟩
        rw [List.cons_append, scan_of_not_closes hcloses, hscan below, hlength, Place.after,
          next_of_not_closes hcloses]

variable (language : String)

/-- Scanned further down, lines give the same marks further down. -/
theorem scan_moved (n index lines blocks : Nat) (place : Place) (texts : List (List Char)) :
    scan (opener language) (n + lines) (index + blocks) (place.moved lines) texts =
      (scan (opener language) n index place texts).map (Mark.moved blocks lines) := by
  induction texts generalizing n index place with
  | nil => cases place <;> rfl
  | cons text rest ih =>
    have hnext : n + lines + 1 = n + 1 + lines := Nat.add_right_comm n lines 1
    have hblock : index + blocks + 1 = index + 1 + blocks := Nat.add_right_comm index blocks 1
    cases place with
    | outside =>
      by_cases hopens : Opens language text
      · have hrest := ih (n + 1) index (.inside n [])
        rw [Place.moved, scan_of_opens hopens, scan_of_opens hopens, List.map_cons, hnext, ← hrest]
        rfl
      · have hrest := ih (n + 1) index .outside
        rw [Place.moved, scan_of_not_opens hopens, scan_of_not_opens hopens, hnext, ← hrest]
        rfl
    | inside o body =>
      by_cases hcloses : Closes text
      · have hrest := ih (n + 1) (index + 1) .outside
        rw [Place.moved, scan_of_closes hcloses, scan_of_closes hcloses, List.map_cons, hnext,
          hblock, ← hrest, Nat.add_right_comm o lines 1]
        rfl
      · have hrest := ih (n + 1) index (.inside o (text :: body))
        rw [Place.moved, scan_of_not_closes hcloses, scan_of_not_closes hcloses, hnext, ← hrest]
        rfl

theorem block?_moved (blocks lines : Nat) (mark : Mark) :
    (mark.moved blocks lines).block? = mark.block?.map (Block.moved blocks lines) := by
  cases mark <;> rfl

/-- The blocks of a text that stands further down. -/
theorem blocks_of_scan_moved (lines blocks : Nat) (text : String) :
    (scan (opener language) (lines + 1) blocks .outside (linesOf text)).filterMap Mark.block? =
      (extract language text).map (Block.moved blocks lines) := by
  have hmoved := scan_moved language 1 0 lines blocks .outside (linesOf text)
  rw [Nat.add_comm 1, Nat.zero_add] at hmoved
  change scan (opener language) (lines + 1) blocks .outside (linesOf text) = _ at hmoved
  rw [hmoved, List.filterMap_map, extract, List.map_filterMap]
  exact congrArg (List.filterMap · _) (funext (block?_moved blocks lines))

end Seam

section Ending

variable {language : String} {p : List Char → Prop} {lines : List (List Char)}

/-- Some line is the first one with a property, or none has it. -/
theorem exists_first (p : List Char → Prop) (lines : List (List Char)) :
    (∀ c, ¬ HoldsAt p lines c) ∨ ∃ c, FirstAfter p lines 0 c := by
  classical
  by_cases h : ∃ c, HoldsAt p lines c
  · refine Or.inr ⟨Nat.find h, (Nat.find_spec h).1, Nat.find_spec h, fun k _ hk ↦ ?_⟩
    exact Nat.find_min h hk
  · exact Or.inl (not_exists.mp h)

/-- The lines around the first one with a property. -/
theorem FirstAfter.split {c : Nat} (h : FirstAfter p lines 0 c) :
    c - 1 < lines.length ∧ (∀ line ∈ lines.take (c - 1), ¬ p line) ∧
      ∃ line, p line ∧ lines = lines.take (c - 1) ++ line :: lines.drop c := by
  obtain ⟨hpos, line, hline, hp⟩ := h.holds
  obtain ⟨hlt, hget⟩ := List.getElem?_eq_some_iff.mp hline
  refine ⟨hlt, ?_, line, hp, ?_⟩
  · intro other hother hholds
    obtain ⟨k, hk, rfl⟩ := List.mem_take_iff_getElem.mp hother
    have hk' : k < c - 1 := Nat.lt_of_lt_of_le hk (Nat.min_le_left _ _)
    refine h.first (k + 1) (Nat.succ_pos k) (by omega) ((holdsAt_succ_iff ?_).mpr hholds)
    exact List.getElem?_eq_getElem _
  · have hdrop : lines.drop (c - 1) = line :: lines.drop c := by
      rw [List.drop_eq_getElem_cons hlt, hget, Nat.sub_add_cancel hpos]
    rw [← hdrop, List.take_append_drop]

/-- A scan that ends inside a fence has come to the line where it opens and met no line on which it
closes since, or it stood inside the fence from the start. -/
theorem after_inside {n o : Nat} {place : Place} {body : List (List Char)}
    (h : place.after (opener language) n lines = .inside o body) :
    (∃ before line, lines = before ++ line :: body.reverse ∧ o = n + before.length ∧
      Opens language line ∧ ∀ text ∈ body, ¬ Closes text) ∨
    ∃ earlier, place = .inside o earlier ∧ body = lines.reverse ++ earlier ∧
      ∀ text ∈ lines, ¬ Closes text := by
  induction lines generalizing n place with
  | nil => exact Or.inr ⟨body, h, rfl, nofun⟩
  | cons line rest ih =>
    rcases ih h with ⟨before, opening, hrest, ho, hopens, hbody⟩ | ⟨earlier, hnext, hbody, hnone⟩
    · refine Or.inl ⟨line :: before, opening, ?_, ?_, hopens, hbody⟩
      · rw [hrest, List.cons_append]
      · rw [ho, List.length_cons]
        omega
    · cases place with
      | outside =>
        by_cases hopens : Opens language line
        · rw [next_of_opens hopens] at hnext
          obtain ⟨rfl, rfl⟩ := Place.inside.inj hnext
          refine Or.inl ⟨[], line, ?_, rfl, hopens, ?_⟩
          · rw [hbody, List.append_nil, List.reverse_reverse, List.nil_append]
          · intro text htext
            rw [hbody, List.append_nil, List.mem_reverse] at htext
            exact hnone text htext
        · rw [next_of_not_opens hopens] at hnext
          exact nomatch hnext
      | inside opened gathered =>
        by_cases hcloses : Closes line
        · rw [next_of_closes hcloses] at hnext
          exact nomatch hnext
        · rw [next_of_not_closes hcloses] at hnext
          obtain ⟨rfl, rfl⟩ := Place.inside.inj hnext
          refine Or.inr ⟨gathered, rfl, ?_, List.forall_mem_cons.mpr ⟨hcloses, hnone⟩⟩
          rw [hbody, List.reverse_cons, List.append_assoc, List.singleton_append]

/-- A text that ends inside a fence: the line where the fence opens, and what stands below it. -/
theorem ending_inside {text : String} {o : Nat} {body : List (List Char)}
    (h : ending language text = .inside o body) :
    HoldsAt (Opens language) (linesOf text) o ∧
      (∀ k, o < k → ¬ HoldsAt Closes (linesOf text) k) ∧
      body.reverse = (linesOf text).drop o := by
  rcases after_inside h with ⟨before, line, hlines, ho, hopens, hbody⟩ | ⟨earlier, hplace, -⟩
  · rw [Nat.add_comm] at ho
    subst ho
    rw [hlines]
    refine ⟨(holdsAt_succ_iff ?_).mpr hopens, ?_, ?_⟩
    · rw [List.getElem?_append_right (Nat.le_refl _), Nat.sub_self, List.getElem?_cons_zero]
    · rintro k hk ⟨-, closing, hclosing, hcloses⟩
      rw [List.getElem?_append_right (by omega), List.getElem?_cons, if_neg (by omega)] at hclosing
      exact hbody closing (List.mem_reverse.mp (List.mem_of_getElem? hclosing)) hcloses
    · rw [List.drop_append, List.drop_of_length_le (Nat.le_succ _), List.nil_append,
        Nat.add_sub_cancel_left, List.drop_succ_cons, List.drop_zero]
  · exact nomatch hplace

/-- The warning about a block that is dropped. -/
def Mark.warning? (language : String) : Mark → Option Log.Event
  | .dropped line => some ⟨.warn, Log.Target.extractor, "Dropping unterminated diagram block",
      [("opened_at", .count line), ("language", .shown language)]⟩
  | _ => none

theorem eventsFrom_marks (language : String) (met : List Mark) :
    Log.eventsFrom .warn (met.map (Mark.item language)) =
      met.filterMap (Mark.warning? language) := by
  rw [Log.eventsFrom, List.filterMap_map]
  refine congrArg (List.filterMap · met) (funext fun mark ↦ ?_)
  cases mark <;> rfl

/-- Extraction warns of nothing but blocks that are dropped. -/
theorem eventsFrom_extraction (language text : String) {σ : Type} (s : σ) :
    Log.eventsFrom .warn ((extraction language text).run s).log =
      (marks language text).filterMap (Mark.warning? language) := by
  let span : Log.Span := ⟨.debug, Log.Target.extractor, "extract",
    [("input_len", .count text.utf8ByteSize)]⟩
  have hlog : ((extraction language text).run s).log =
      .enter span :: ((marks language text).map (Mark.item language) ++
        [.event ⟨.debug, Log.Target.extractor, "Extraction completed",
          [("block_count", .count (extract language text).length)]⟩, .leave span]) := by
    simp [extraction, extract, span]
  rw [hlog, Log.eventsFrom, List.filterMap_cons_none rfl, List.filterMap_append,
    ← eventsFrom_marks]
  exact List.append_nil _

end Ending

section Texts

variable (language a b : String)

/-- A text gives the marks that are met in it, and the one that its end makes of the last place. -/
theorem exists_met :
    ∃ met, (∀ mark ∈ met, ∀ o, mark ≠ .dropped o) ∧
      marks language a = met ++ (ending language a).left ∧
      extract language a = met.filterMap Mark.block? ∧
      ∀ below, scan (opener language) 1 0 .outside (linesOf a ++ below) =
        met ++ scan (opener language) ((linesOf a).length + 1) (extract language a).length
          (ending language a) below := by
  obtain ⟨met, hmet, hscan⟩ := exists_scan_append language 1 0 .outside (linesOf a)
  have hplace : Place.after (opener language) 1 .outside (linesOf a) = ending language a := rfl
  rw [hplace, Nat.zero_add, Nat.add_comm 1] at hscan
  have hmarks : marks language a = met ++ (ending language a).left := by
    have hnone := hscan []
    rw [List.append_nil] at hnone
    rw [marks, hnone]
    cases ending language a <;> rfl
  have hfound : extract language a = met.filterMap Mark.block? := by
    have hleft : (ending language a).left.filterMap Mark.block? = [] := by
      cases ending language a <;> rfl
    rw [extract, hmarks, List.filterMap_append, hleft, List.append_nil]
  rw [← hfound] at hscan
  exact ⟨met, hmet, hmarks, hfound, hscan⟩

/-- Below a text the scan goes on from the place where the text ends. -/
theorem extract_below :
    extract language (a ++ "\n" ++ b) = extract language a ++
      (scan (opener language) ((linesOf a).length + 1) (extract language a).length
        (ending language a) (linesOf b)).filterMap Mark.block? := by
  obtain ⟨met, -, -, hfound, hscan⟩ := exists_met language a
  rw [extract, marks, linesOf_append, hscan, List.filterMap_append, ← hfound]

/-- A warning tells of the fence that a text ends in, and of nothing else. -/
theorem warnings_extraction {σ : Type} (s : σ) :
    Log.eventsFrom .warn ((extraction language a).run s).log =
      (ending language a).left.filterMap (Mark.warning? language) := by
  obtain ⟨met, hmet, hmarks, -⟩ := exists_met language a
  have hquiet : met.filterMap (Mark.warning? language) = [] := by
    rw [List.filterMap_eq_nil_iff]
    intro mark hmark
    cases mark with
    | dropped o => exact absurd rfl (hmet _ hmark o)
    | opened | closed => rfl
  rw [eventsFrom_extraction, hmarks, List.filterMap_append, hquiet, List.nil_append]

/-- Texts one below the other. If the upper one ends outside a fence, the lower one gives the blocks
that it gives alone, numbered on and further down. If it ends inside a fence, the block goes on below
the seam up to the first line that closes it, and the rest of the lower text gives its blocks from
there; without such a line the block is dropped. Of the upper text alone, a warning tells where the
fence opens that it ends in, and there is no other. -/
theorem extract_append :
    linesOf (a ++ "\n" ++ b) = linesOf a ++ linesOf b ∧
    extract language a <+: extract language (a ++ "\n" ++ b) ∧
    (ending language a = .outside →
      extract language (a ++ "\n" ++ b) = extract language a ++ (extract language b).map
        (Block.moved (extract language a).length (linesOf a).length) ∧
      ∀ {σ : Type} (s : σ), Log.eventsFrom .warn ((extraction language a).run s).log = []) ∧
    ∀ o body, ending language a = .inside o body →
      HoldsAt (Opens language) (linesOf a) o ∧
      (∀ k, o < k → ¬ HoldsAt Closes (linesOf a) k) ∧
      ((∀ c, ¬ HoldsAt Closes (linesOf b) c) ∧
          extract language (a ++ "\n" ++ b) = extract language a ∨
        ∃ c, FirstAfter Closes (linesOf b) 0 c ∧
          extract language (a ++ "\n" ++ b) = extract language a ++
            ⟨(extract language a).length, o + 1, (linesOf a).length + c,
              String.ofList (Text.joinLines ((linesOf a).drop o ++ (linesOf b).take (c - 1)))⟩ ::
              (extract language (behind c b)).map
                (Block.moved ((extract language a).length + 1) ((linesOf a).length + c))) ∧
      ∀ {σ : Type} (s : σ), Log.eventsFrom .warn ((extraction language a).run s).log =
        [⟨.warn, Log.Target.extractor, "Dropping unterminated diagram block",
          [("opened_at", .count o), ("language", .shown language)]⟩] := by
  have hwhole := extract_below language a b
  have hwarnings := @warnings_extraction language a
  refine ⟨linesOf_append a b, ⟨_, hwhole.symm⟩, ?_, ?_⟩
  · intro houtside
    rw [houtside] at hwhole hwarnings
    rw [hwhole, blocks_of_scan_moved]
    exact ⟨rfl, hwarnings⟩
  · intro o body hinside
    obtain ⟨hopens, hnone, hbody⟩ := ending_inside hinside
    rw [hinside] at hwhole hwarnings
    refine ⟨hopens, hnone, ?_, hwarnings⟩
    rcases exists_first Closes (linesOf b) with hopen | ⟨c, hfirst⟩
    · -- The block of the upper text is dropped with the lower text in it.
      refine Or.inl ⟨hopen, ?_⟩
      have hpassed : ∀ line ∈ linesOf b, ¬ Closes line := by
        intro line hline hcloses
        obtain ⟨k, hk⟩ := List.mem_iff_getElem?.mp hline
        exact hopen (k + 1) ((holdsAt_succ_iff hk).mpr hcloses)
      have hend (n index : Nat) :
          scan (opener language) n index (.inside o body) (linesOf b) = [.dropped o] := by
        rw [← List.append_nil (linesOf b), scan_inside_append hpassed]
        rfl
      rw [hwhole, hend]
      exact List.append_nil _
    · -- It goes on below the seam until it closes.
      obtain ⟨hlt, hpassed, line, hcloses, hsplit⟩ := hfirst.split
      refine Or.inr ⟨c, hfirst, ?_⟩
      have hlength (n : Nat) : n + 1 + ((linesOf b).take (c - 1)).length = n + c := by
        rw [List.length_take_of_le (Nat.le_of_lt hlt)]
        have hpos := hfirst.after
        omega
      rw [hwhole, hsplit, scan_inside_append hpassed, hlength, scan_of_closes hcloses, ← hsplit,
        ← scan_behind, List.filterMap_cons_some (f := Mark.block?) rfl, blocks_of_scan_moved,
        List.reverse_append, List.reverse_reverse, hbody]

end Texts

end Fence

end FenceLint
