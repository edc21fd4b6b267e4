/-!
Cutting a text at every occurrence of a character, and gluing pieces together with one. A text has
one piece more than it has occurrences, empty ones included, so gluing undoes cutting.
-/

set_option autoImplicit false

namespace FenceLint.Text

/-- The pieces of a text between the occurrences of `mark`. -/
def pieces (mark : Char) : List Char → List (List Char)
  | [] => [[]]
  | c :: rest =>
    if c = mark then [] :: pieces mark rest
    else match pieces mark rest with
      | [] => [[c]]
      | head :: tail => (c :: head) :: tail

/-- Pieces with `mark` between them. -/
def glue (mark : Char) (parts : List (List Char)) : List Char :=
  List.intercalate [mark] parts

variable {mark : Char}

theorem pieces_ne_nil (cs : List Char) : pieces mark cs ≠ [] := by
  cases cs with
  | nil => simp [pieces]
  | cons c rest =>
    unfold pieces
    split
    · simp
    · split <;> simp

theorem pieces_cons_of_ne {c : Char} (h : c ≠ mark) {cs head : List Char} {tail : List (List Char)}
    (hs : pieces mark cs = head :: tail) : pieces mark (c :: cs) = (c :: head) :: tail := by
  simp [pieces, h, hs]

/-- No piece holds the character that the text was cut at. -/
theorem not_mem_of_mem_pieces {cs part : List Char} (h : part ∈ pieces mark cs) :
    mark ∉ part := by
  induction cs generalizing part with
  | nil => simp_all [pieces]
  | cons c rest ih =>
    obtain ⟨head, tail, hs⟩ := List.exists_cons_of_ne_nil (@pieces_ne_nil mark rest)
    by_cases hc : c = mark
    · simp only [pieces, if_pos hc, List.mem_cons] at h
      rcases h with rfl | h
      · simp
      · exact ih h
    · rw [pieces_cons_of_ne hc hs, List.mem_cons] at h
      rcases h with rfl | h
      · have hhead : mark ∉ head := ih (by simp [hs])
        simp [hhead, Ne.symm hc]
      · exact ih (by simp [hs, h])

/-- A text without the character is one piece. -/
theorem pieces_of_not_mem {cs : List Char} (h : mark ∉ cs) : pieces mark cs = [cs] := by
  induction cs with
  | nil => rfl
  | cons c rest ih =>
    have hc : c ≠ mark := fun hc ↦ h (hc ▸ List.mem_cons_self)
    exact pieces_cons_of_ne hc (ih fun hrest ↦ h (List.mem_cons_of_mem c hrest))

/-- The pieces on both sides of an occurrence. -/
theorem pieces_append_cons (cs rest : List Char) :
    pieces mark (cs ++ mark :: rest) = pieces mark cs ++ pieces mark rest := by
  induction cs with
  | nil => simp [pieces]
  | cons c cs ih =>
    by_cases hc : c = mark
    · rw [List.cons_append, pieces, if_pos hc, pieces, if_pos hc, ih, List.cons_append]
    · obtain ⟨head, tail, hs⟩ := List.exists_cons_of_ne_nil (@pieces_ne_nil mark cs)
      rw [hs, List.cons_append] at ih
      rw [List.cons_append, pieces_cons_of_ne hc ih, pieces_cons_of_ne hc hs, List.cons_append]

theorem glue_singleton (part : List Char) : glue mark [part] = part := by
  simp [glue]

theorem glue_cons_cons (part next : List Char) (more : List (List Char)) :
    glue mark (part :: next :: more) = part ++ mark :: glue mark (next :: more) := by
  simp [glue, List.intercalate]

/-- Glued pieces stay in one piece. -/
theorem infix_glue {part : List Char} {parts : List (List Char)} (h : part ∈ parts) :
    part <:+: glue mark parts := by
  induction parts with
  | nil => exact absurd h List.not_mem_nil
  | cons first rest ih =>
    cases rest with
    | nil =>
      obtain rfl := List.mem_singleton.mp h
      exact ⟨[], [], by rw [glue_singleton, List.nil_append, List.append_nil]⟩
    | cons next more =>
      rw [glue_cons_cons]
      rcases List.mem_cons.mp h with rfl | h
      · exact (List.prefix_append part _).isInfix
      · exact (ih h).trans ((List.suffix_cons mark _).trans (List.suffix_append first _)).isInfix

/-- Cutting undoes gluing, where there is a piece at all and no piece holds the character. -/
theorem pieces_glue {parts : List (List Char)} (hne : parts ≠ [])
    (h : ∀ part ∈ parts, mark ∉ part) : pieces mark (glue mark parts) = parts := by
  induction parts with
  | nil => exact absurd rfl hne
  | cons part rest ih =>
    obtain ⟨hpart, hrest⟩ := List.forall_mem_cons.mp h
    cases rest with
    | nil => rw [glue_singleton, pieces_of_not_mem hpart]
    | cons next more =>
      rw [glue_cons_cons, pieces_append_cons, pieces_of_not_mem hpart,
        ih (List.cons_ne_nil next more) hrest, List.singleton_append]

/-- Nothing is lost: glued together, the pieces are the text again. -/
theorem glue_pieces (cs : List Char) : glue mark (pieces mark cs) = cs := by
  induction cs with
  | nil => rfl
  | cons c rest ih =>
    obtain ⟨head, tail, hs⟩ := List.exists_cons_of_ne_nil (@pieces_ne_nil mark rest)
    rw [hs] at ih
    by_cases h : c = mark
    · subst h
      simp only [glue] at ih ⊢
      simp [pieces, hs, List.intercalate] at ih ⊢
      exact ih
    · rw [pieces_cons_of_ne h hs]
      cases tail <;> simp_all [glue, List.intercalate]

/-- What stands in a row in a piece stands so in the text. -/
theorem infix_of_mem_pieces {cs part : List Char} (h : part ∈ pieces mark cs) : part <:+: cs := by
  have hglue : part <:+: glue mark (pieces mark cs) := infix_glue h
  rw [glue_pieces] at hglue
  exact hglue

/-- A piece holds nothing but characters of the text. -/
theorem mem_of_mem_pieces {c : Char} {cs part : List Char} (h : part ∈ pieces mark cs)
    (hc : c ∈ part) : c ∈ cs :=
  (infix_of_mem_pieces h).subset hc

/-- The last piece is empty only if the text is, or ends with the character. -/
theorem eq_nil_or_getLast?_of_pieces {cs : List Char} (h : (pieces mark cs).getLast? = some []) :
    cs = [] ∨ cs.getLast? = some mark := by
  induction cs with
  | nil => exact .inl rfl
  | cons c rest ih =>
    right
    obtain ⟨head, tail, hs⟩ := List.exists_cons_of_ne_nil (@pieces_ne_nil mark rest)
    by_cases hc : c = mark
    · rw [pieces, if_pos hc, hs, List.getLast?_cons_cons, ← hs] at h
      rcases ih h with rfl | hlast
      · rw [hc]
        rfl
      · rw [List.getLast?_cons, hlast]
        rfl
    · rw [pieces_cons_of_ne hc hs] at h
      cases tail with
      | nil => exact absurd (Option.some.inj h) (List.cons_ne_nil c head)
      | cons next more =>
        rw [List.getLast?_cons_cons, ← List.getLast?_cons_cons (a := head), ← hs] at h
        rcases ih h with rfl | hlast
        · exact absurd (congrArg List.length hs) (by simp [pieces])
        · rw [List.getLast?_cons, hlast]
          rfl

end FenceLint.Text
