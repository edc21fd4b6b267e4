import FenceLint.Fence

/-!
The scan finds the greedy decomposition of the lines, stated by line numbers alone: the first
opening line, the first closing line after it, the first opening line after that one, and so on
until one is missing (`Greedy`). `exists_greedy_scan` carries this along the scan, with
`Stands` as the invariant between two lines. What the decomposition says of the blocks, their
order, their extent and the opening lines that they leave over, is read off `Greedy`.
-/

set_option autoImplicit false

namespace FenceLint.Fence

/-- A line on which a fence of `language` opens. -/
def Opens (language : String) (line : List Char) : Prop := Text.trim line = opener language

/-- A line on which an open fence closes. -/
def Closes (line : List Char) : Prop := Text.trim line = fence

/-- Line `n`, counted from one, has a property. -/
def HoldsAt (p : List Char → Prop) (lines : List (List Char)) (n : Nat) : Prop :=
  0 < n ∧ ∃ line, lines[n - 1]? = some line ∧ p line

/-- Line `n` is the first one after line `m` that has a property. -/
structure FirstAfter (p : List Char → Prop) (lines : List (List Char)) (m n : Nat) : Prop where
  after : m < n
  holds : HoldsAt p lines n
  first : ∀ k, m < k → k < n → ¬ HoldsAt p lines k

/-- The greedy decomposition of the lines after line `m`: where each fence opens and closes. -/
inductive Greedy (language : String) (lines : List (List Char)) : Nat → List (Nat × Nat) → Prop
  | unopened {m : Nat} (hnone : ∀ n, m < n → ¬ HoldsAt (Opens language) lines n) :
    Greedy language lines m []
  | unclosed {m o : Nat} (hopen : FirstAfter (Opens language) lines m o)
    (hnone : ∀ n, o < n → ¬ HoldsAt Closes lines n) : Greedy language lines m []
  | pair {m o c : Nat} {rest : List (Nat × Nat)} (hopen : FirstAfter (Opens language) lines m o)
    (hclose : FirstAfter Closes lines o c) (hrest : Greedy language lines c rest) :
    Greedy language lines m ((o, c) :: rest)

/-- The lines strictly between line `o` and line `c`. -/
def between (lines : List (List Char)) (o c : Nat) : List (List Char) :=
  (lines.take (c - 1)).drop o

/-- The block between the fences of a span. -/
def blockAt (lines : List (List Char)) (span : Nat × Nat) (index : Nat) : Block :=
  ⟨index, span.1 + 1, span.2, String.ofList (Text.joinLines (between lines span.1 span.2))⟩

/-- The blocks of spans, numbered from `index`. -/
def blocksAt (lines : List (List Char)) (index : Nat) (spans : List (Nat × Nat)) : List Block :=
  (spans.zipIdx index).map fun s ↦ blockAt lines s.1 s.2

section Numbering

variable {p : List Char → Prop} {lines : List (List Char)} {m n o c : Nat}

theorem HoldsAt.le_length (h : HoldsAt p lines n) : n ≤ lines.length := by
  obtain ⟨hpos, line, hline, -⟩ := h
  have := (List.getElem?_eq_some_iff.1 hline).1
  omega

theorem holdsAt_succ_iff {line : List Char} (hline : lines[n]? = some line) :
    HoldsAt p lines (n + 1) ↔ p line := by
  simp [HoldsAt, hline]

theorem between_succ {line : List Char} (hline : lines[n]? = some line) (hle : o ≤ n) :
    between lines o (n + 2) = between lines o (n + 1) ++ [line] := by
  obtain ⟨hlt, rfl⟩ := List.getElem?_eq_some_iff.1 hline
  simp only [between, Nat.add_sub_cancel, show n + 2 - 1 = n + 1 from rfl]
  rw [List.take_succ_eq_append_getElem hlt, List.drop_append_of_le_length]
  simp
  omega

theorem between_self : between lines n (n + 1) = [] := by
  simp [between]

end Numbering

section Blocks

variable {lines : List (List Char)} {index : Nat} {spans : List (Nat × Nat)}

theorem map_index_blocksAt :
    (blocksAt lines index spans).map Block.index = List.range' index spans.length := by
  simp only [blocksAt, List.map_map, Function.comp_def, blockAt]
  exact List.zipIdx_map_snd index spans

end Blocks

section Decomposition

variable {language : String} {lines : List (List Char)} {m : Nat} {spans : List (Nat × Nat)}

/-- Every span lies after the line where the decomposition starts, and closes after it opens. -/
theorem Greedy.lt (h : Greedy language lines m spans) : ∀ s ∈ spans, m < s.1 ∧ s.1 < s.2 := by
  induction h with
  | unopened => simp
  | unclosed => simp
  | pair hopen hclose _ ih =>
    intro s hs
    rcases List.mem_cons.1 hs with rfl | hs
    · exact ⟨hopen.after, hclose.after⟩
    · have := ih s hs
      have := hopen.after
      have := hclose.after
      omega

/-- An opening line belongs to a span, or to a last fence that never closes. -/
theorem Greedy.covers (h : Greedy language lines m spans) {n : Nat} (hmn : m < n)
    (hn : HoldsAt (Opens language) lines n) :
    (∃ s ∈ spans, s.1 ≤ n ∧ n ≤ s.2) ∨
      ∃ o ≤ n, HoldsAt (Opens language) lines o ∧ m < o ∧ (∀ s ∈ spans, s.2 < o) ∧
        ∀ k, o < k → ¬ HoldsAt Closes lines k := by
  induction h with
  | unopened hnone => exact absurd hn (hnone n hmn)
  | @unclosed m o hopen hnone =>
    have hle : o ≤ n := Nat.le_of_not_lt fun hlt ↦ hopen.first n hmn hlt hn
    exact Or.inr ⟨o, hle, hopen.holds, hopen.after, by simp, hnone⟩
  | @pair m o c rest hopen hclose hrest ih =>
    have hle : o ≤ n := Nat.le_of_not_lt fun hlt ↦ hopen.first n hmn hlt hn
    by_cases hin : n ≤ c
    · exact Or.inl ⟨(o, c), by simp, hle, hin⟩
    · rcases ih (by omega) with ⟨s, hs, hspan⟩ | ⟨o', hle', ho', hlt, hafter, hnone⟩
      · exact Or.inl ⟨s, List.mem_cons_of_mem _ hs, hspan⟩
      · have hoc := hclose.after
        have hmo := hopen.after
        refine Or.inr ⟨o', hle', ho', by omega, fun s hs ↦ ?_, hnone⟩
        rcases List.mem_cons.1 hs with rfl | hs
        · exact hlt
        · exact hafter s hs

end Decomposition

section Steps

variable {language : String} {line : List Char} {rest body : List (List Char)} {n index o : Nat}

theorem scan_of_opens (h : Opens language line) :
    scan (opener language) n index .outside (line :: rest) =
      .opened n :: scan (opener language) (n + 1) index (.inside n []) rest :=
  if_pos h

theorem scan_of_not_opens (h : ¬ Opens language line) :
    scan (opener language) n index .outside (line :: rest) =
      scan (opener language) (n + 1) index .outside rest :=
  if_neg h

theorem scan_of_closes (h : Closes line) :
    scan (opener language) n index (.inside o body) (line :: rest) =
      .closed ⟨index, o + 1, n, String.ofList (Text.joinLines body.reverse)⟩ ::
        scan (opener language) (n + 1) (index + 1) .outside rest :=
  if_pos h

theorem scan_of_not_closes (h : ¬ Closes line) :
    scan (opener language) n index (.inside o body) (line :: rest) =
      scan (opener language) (n + 1) index (.inside o (line :: body)) rest :=
  if_neg h

end Steps

section Scan

variable {language : String} {lines : List (List Char)}

/-- Where the scan stands after `seen` lines, the decomposition having come as far as line `m`. -/
def Stands (language : String) (lines : List (List Char)) (m seen : Nat) : Place → Prop
  | .outside => m ≤ seen ∧ ∀ k, m < k → k ≤ seen → ¬ HoldsAt (Opens language) lines k
  | .inside o body =>
    FirstAfter (Opens language) lines m o ∧ o ≤ seen ∧
      (∀ k, o < k → k ≤ seen → ¬ HoldsAt Closes lines k) ∧
      body.reverse = between lines o (seen + 1)

/-- A property that fails on all lines up to the last fails on all lines. -/
theorem not_holdsAt_of_length_le {p : List Char → Prop} {m seen : Nat}
    (hlen : lines.length ≤ seen) (hnone : ∀ k, m < k → k ≤ seen → ¬ HoldsAt p lines k) (k : Nat)
    (hk : m < k) : ¬ HoldsAt p lines k :=
  fun h ↦ hnone k hk (Nat.le_trans h.le_length hlen) h

/-- One more line without a property. -/
theorem not_holdsAt_succ {p : List Char → Prop} {m seen : Nat} {line : List Char}
    (hline : lines[seen]? = some line) (hp : ¬ p line)
    (hnone : ∀ k, m < k → k ≤ seen → ¬ HoldsAt p lines k) (k : Nat) (hk : m < k)
    (hle : k ≤ seen + 1) : ¬ HoldsAt p lines k := by
  rcases Nat.lt_or_eq_of_le hle with h | rfl
  · exact hnone k hk (by omega)
  · rwa [holdsAt_succ_iff hline]

/-- The first line with a property, after lines without it. -/
theorem firstAfter_succ {p : List Char → Prop} {m seen : Nat} {line : List Char}
    (hline : lines[seen]? = some line) (hp : p line) (hle : m ≤ seen)
    (hnone : ∀ k, m < k → k ≤ seen → ¬ HoldsAt p lines k) : FirstAfter p lines m (seen + 1) :=
  ⟨by omega, (holdsAt_succ_iff hline).2 hp, fun k hk hlt ↦ hnone k hk (by omega)⟩

/-- From wherever it stands the scan finds the rest of the decomposition, and gives its blocks. -/
theorem exists_greedy_scan {rest : List (List Char)} {m seen index : Nat} {place : Place}
    (hrest : lines.drop seen = rest) (hplace : Stands language lines m seen place) :
    ∃ spans, Greedy language lines m spans ∧
      (scan (opener language) (seen + 1) index place rest).filterMap Mark.block? =
        blocksAt lines index spans := by
  induction rest generalizing m seen index place with
  | nil =>
    have hlen : lines.length ≤ seen := List.drop_eq_nil_iff.1 hrest
    cases place with
    | outside =>
      exact ⟨[], .unopened (not_holdsAt_of_length_le hlen hplace.2), rfl⟩
    | inside o body =>
      obtain ⟨hopen, -, hnone, -⟩ := hplace
      exact ⟨[], .unclosed hopen (not_holdsAt_of_length_le hlen hnone), rfl⟩
  | cons line rest ih =>
    have hline : lines[seen]? = some line := by
      rw [← List.head?_drop, hrest, List.head?_cons]
    have htail : lines.drop (seen + 1) = rest := by
      rw [← List.tail_drop, hrest, List.tail_cons]
    cases place with
    | outside =>
      obtain ⟨hle, hnone⟩ := hplace
      by_cases hopens : Opens language line
      · have hinside : Stands language lines m (seen + 1) (.inside (seen + 1) []) :=
          ⟨firstAfter_succ hline hopens hle hnone, Nat.le_refl _, fun k hk hk' ↦ by omega,
            between_self.symm⟩
        obtain ⟨spans, hgreedy, hblocks⟩ := ih htail hinside
        refine ⟨spans, hgreedy, ?_⟩
        rw [← hblocks, scan_of_opens hopens, List.filterMap_cons_none rfl]
      · have houtside : Stands language lines m (seen + 1) .outside :=
          ⟨by omega, not_holdsAt_succ hline hopens hnone⟩
        obtain ⟨spans, hgreedy, hblocks⟩ := ih htail houtside
        refine ⟨spans, hgreedy, ?_⟩
        rw [← hblocks, scan_of_not_opens hopens]
    | inside o body =>
      obtain ⟨hopen, hle, hnone, hbody⟩ := hplace
      by_cases hcloses : Closes line
      · have hclose := firstAfter_succ hline hcloses hle hnone
        have houtside : Stands language lines (seen + 1) (seen + 1) .outside :=
          ⟨Nat.le_refl _, fun k hk hk' ↦ by omega⟩
        obtain ⟨spans, hgreedy, hblocks⟩ := ih htail houtside
        refine ⟨(o, seen + 1) :: spans, .pair hopen hclose hgreedy, ?_⟩
        rw [scan_of_closes hcloses, List.filterMap_cons_some (f := Mark.block?) rfl, hblocks, hbody]
        rfl
      · have hinside : Stands language lines m (seen + 1) (.inside o (line :: body)) := by
          refine ⟨hopen, by omega, not_holdsAt_succ hline hcloses hnone, ?_⟩
          rw [between_succ hline hle, List.reverse_cons, hbody]
        obtain ⟨spans, hgreedy, hblocks⟩ := ih htail hinside
        refine ⟨spans, hgreedy, ?_⟩
        rw [← hblocks, scan_of_not_closes hcloses]

/-- The blocks of a text are those of the greedy decomposition of its lines. -/
theorem exists_greedy_extract (language text : String) :
    ∃ spans, Greedy language (linesOf text) 0 spans ∧
      extract language text = blocksAt (linesOf text) 0 spans :=
  have hstart : Stands language (linesOf text) 0 0 .outside :=
    ⟨Nat.le_refl _, fun k hk hk' ↦ by omega⟩
  exists_greedy_scan rfl hstart

/-- The blocks of a text are numbered from zero. -/
theorem map_index_extract (language text : String) :
    (extract language text).map Block.index =
      List.range' 0 (extract language text).length := by
  obtain ⟨spans, -, hblocks⟩ := exists_greedy_extract language text
  have hlength : (blocksAt (linesOf text) 0 spans).length = spans.length := by
    rw [blocksAt, List.length_map, List.length_zipIdx]
  rw [hblocks, map_index_blocksAt, hlength]

end Scan

end FenceLint.Fence
