import FenceLint.Text.Lines

/-!
What the printed lines of a text are, told without cutting it: each line ends with a line feed or
with a carriage return and a line feed, and only the last one may do without. A text has its lines
in this one way (`Rowed.eq_rows`), and the lines that are printed are these (`rowed_rows`).
-/

set_option autoImplicit false

namespace FenceLint

namespace Text

/-- The lines of a text. Each ends with a line feed, and with the carriage return in front of it if
there is one; the last may do without, if it is not empty. -/
inductive Rowed : List Char → List (List Char) → Prop
  | nil : Rowed [] []
  | last (row : List Char) (hfeed : '\n' ∉ row) (hne : row ≠ []) : Rowed row [row]
  | fed (row : List Char) (hfeed : '\n' ∉ row) (hreturn : row.getLast? ≠ some '\r')
    (rest : List Char) (rows : List (List Char)) (hrest : Rowed rest rows) :
    Rowed (row ++ '\n' :: rest) (row :: rows)
  | returned (row : List Char) (hfeed : '\n' ∉ row) (rest : List Char) (rows : List (List Char))
    (hrest : Rowed rest rows) : Rowed (row ++ '\r' :: '\n' :: rest) (row :: rows)

theorem rows_of_not_mem {cs : List Char} (h : '\n' ∉ cs) :
    rows cs = if cs = [] then [] else [cs] := by
  rw [rows, segments, pieces_of_not_mem h]
  rfl

/-- A line feed ends a line. -/
theorem rows_append_cons {line : List Char} (h : '\n' ∉ line) (rest : List Char) :
    rows (line ++ '\n' :: rest) = dropReturn line :: rows rest := by
  have hsegments : segments (line ++ '\n' :: rest) = line :: segments rest := by
    rw [segments, pieces_append_cons, pieces_of_not_mem h]
    rfl
  obtain ⟨next, more, hrest⟩ := List.exists_cons_of_ne_nil (@pieces_ne_nil '\n' rest)
  change segments rest = next :: more at hrest
  simp only [rows, hsegments, hrest, List.getLast?_cons_cons, List.dropLast_cons_cons, List.map_cons]
  split
  · rfl
  · split <;> rfl

/-- There is one way to tell the lines of a text. -/
theorem Rowed.eq_rows {cs : List Char} {lines : List (List Char)} (h : Rowed cs lines) :
    lines = rows cs := by
  induction h with
  | nil => rfl
  | last row hfeed hne => rw [rows_of_not_mem hfeed, if_neg hne]
  | fed row hfeed hreturn rest lines _ ih =>
    rw [rows_append_cons hfeed, dropReturn, if_neg hreturn, ih]
  | returned row hfeed rest lines _ ih =>
    have hline : '\n' ∉ row ++ ['\r'] := by
      rw [List.mem_append, not_or]
      exact ⟨hfeed, by decide⟩
    have hdrop : dropReturn (row ++ ['\r']) = row := by
      rw [dropReturn, if_pos List.getLast?_concat, List.dropLast_concat]
    have happend := rows_append_cons hline rest
    rw [List.append_assoc, hdrop] at happend
    exact (congrArg _ ih).trans happend.symm

/-- The printed lines of a text are its lines. -/
theorem rowed_rows (cs : List Char) : Rowed cs (rows cs) := by
  by_cases h : '\n' ∈ cs
  · obtain ⟨line, rest, hcs, hfeed⟩ := List.eq_append_cons_of_mem h
    have hlength : rest.length < cs.length := by
      rw [hcs, List.length_append, List.length_cons]
      omega
    have ih := rowed_rows rest
    rw [hcs, rows_append_cons hfeed]
    by_cases hreturn : line.getLast? = some '\r'
    · obtain ⟨row, rfl⟩ := List.getLast?_eq_some_iff.mp hreturn
      rw [dropReturn, if_pos hreturn, List.dropLast_concat, List.append_assoc]
      exact .returned row (fun hrow ↦ hfeed (List.mem_append_left _ hrow)) rest _ ih
    · rw [dropReturn, if_neg hreturn]
      exact .fed line hfeed hreturn rest _ ih
  · rw [rows_of_not_mem h]
    split
    · rename_i hnil
      rw [hnil]
      exact .nil
    · rename_i hne
      exact .last cs h hne
termination_by cs.length

/-- A line holds characters of the text, but no line feed. -/
theorem Rowed.mem {cs row : List Char} {lines : List (List Char)} (h : Rowed cs lines)
    (hrow : row ∈ lines) : '\n' ∉ row ∧ ∀ c ∈ row, c ∈ cs := by
  induction h with
  | nil => exact absurd hrow List.not_mem_nil
  | last line hfeed _ =>
    obtain rfl := List.mem_singleton.mp hrow
    exact ⟨hfeed, fun _ hc ↦ hc⟩
  | fed line hfeed _ rest lines _ ih =>
    rcases List.mem_cons.mp hrow with rfl | hrow
    · exact ⟨hfeed, fun _ hc ↦ List.mem_append_left _ hc⟩
    · obtain ⟨hnone, hsubset⟩ := ih hrow
      exact ⟨hnone, fun c hc ↦
        List.mem_append_right _ (List.mem_cons_of_mem _ (hsubset c hc))⟩
  | returned line hfeed rest lines _ ih =>
    rcases List.mem_cons.mp hrow with rfl | hrow
    · exact ⟨hfeed, fun _ hc ↦ List.mem_append_left _ hc⟩
    · obtain ⟨hnone, hsubset⟩ := ih hrow
      exact ⟨hnone, fun c hc ↦ List.mem_append_right _
        (List.mem_cons_of_mem _ (List.mem_cons_of_mem _ (hsubset c hc)))⟩

end Text

end FenceLint
