/-!
Blank characters and trimming. `isBlank` is Unicode's White_Space property, so a no-break space
or an ideographic space around a fence counts as indentation. `trim` drops blanks at both ends
and keeps those between words.
-/

set_option autoImplicit false

namespace FenceLint.Text

/-- The code points that Unicode gives the property White_Space. -/
def isBlank (c : Char) : Bool :=
  let n := c.toNat
  (0x09 ≤ n && n ≤ 0x0D) || n == 0x20 || n == 0x85 || n == 0xA0 || n == 0x1680 ||
    (0x2000 ≤ n && n ≤ 0x200A) || n == 0x2028 || n == 0x2029 || n == 0x202F || n == 0x205F ||
    n == 0x3000

/-- Drops the blanks at the end. -/
def trimEnd (cs : List Char) : List Char :=
  (cs.reverse.dropWhile isBlank).reverse

/-- Drops the blanks at both ends. -/
def trim (cs : List Char) : List Char :=
  trimEnd (cs.dropWhile isBlank)

/-- A text says nothing when every character of it is blank. -/
def isAllBlank (s : String) : Bool :=
  s.toList.all isBlank

/-- `trim` on strings. -/
def trimmed (s : String) : String :=
  String.ofList (trim s.toList)

@[simp] theorem trim_nil : trim [] = [] := rfl

section Padding

variable {cs pad : List Char}

/-- Blanks behind a text are trimmed away. -/
theorem trim_append_blank (h : ∀ c ∈ pad, isBlank c = true) : trim (cs ++ pad) = trim cs := by
  have hpad : pad.dropWhile isBlank = [] := by
    rw [← List.append_nil pad, List.dropWhile_append_of_pos h, List.dropWhile_nil]
  have hend (front : List Char) : trimEnd (front ++ pad) = trimEnd front := by
    have hreverse : ∀ c ∈ pad.reverse, isBlank c = true := fun c hc ↦ h c (List.mem_reverse.mp hc)
    rw [trimEnd, List.reverse_append, List.dropWhile_append_of_pos hreverse, trimEnd]
  rw [trim, List.dropWhile_append]
  split
  · next hempty => rw [hpad, trim, List.isEmpty_iff.mp hempty]
  · rw [hend, trim]

/-- Blanks in front of a text are trimmed away. -/
theorem trim_blank_append (h : ∀ c ∈ pad, isBlank c = true) : trim (pad ++ cs) = trim cs := by
  rw [trim, List.dropWhile_append_of_pos h, trim]

/-- A text stays as it is if it neither begins nor ends in a blank. -/
theorem trim_eq_self (hhead : ∀ c, cs.head? = some c → isBlank c = false)
    (hlast : ∀ c, cs.getLast? = some c → isBlank c = false) : trim cs = cs := by
  have hkept {text : List Char} (hfirst : ∀ c, text.head? = some c → isBlank c = false) :
      text.dropWhile isBlank = text := by
    cases text with
    | nil => rfl
    | cons c rest => exact List.dropWhile_cons_of_neg (by simp [hfirst c rfl])
  rw [trim, hkept hhead, trimEnd, hkept, List.reverse_reverse]
  rwa [List.head?_reverse]

/-- Nothing that is trimmed ends in a blank. -/
theorem isBlank_of_getLast?_trim {c : Char} (h : (trim cs).getLast? = some c) :
    isBlank c = false := by
  rw [trim, trimEnd, List.getLast?_reverse] at h
  have hfirst := List.head?_dropWhile_not isBlank (cs.dropWhile isBlank).reverse
  rw [h] at hfirst
  exact hfirst

/-- Trimming adds nothing. -/
theorem mem_of_mem_trim {c : Char} (h : c ∈ trim cs) : c ∈ cs := by
  rw [trim, trimEnd, List.mem_reverse] at h
  have hrest := (List.dropWhile_suffix isBlank).mem h
  exact (List.dropWhile_suffix isBlank).mem (List.mem_reverse.mp hrest)

end Padding

end FenceLint.Text
