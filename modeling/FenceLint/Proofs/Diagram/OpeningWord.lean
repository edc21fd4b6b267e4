import FenceLint.Diagram.Label
import Mathlib.Data.List.Infix

/-!
A diagram is labelled by the longest word in front of its source and by nothing behind it
(`label_by_opening_word`). The label is such a word itself, and not empty, so that it can be read
off itself; that gives it back, because no short label of the table is a keyword for another one.
-/

set_option autoImplicit false

namespace FenceLint.Diagram

section Word

variable {c : Char} {code word rest : String}

/-- The ASCII letters, the ASCII digits and the underscore. -/
def BelongsToWord (c : Char) : Prop :=
  ('A' ≤ c ∧ c ≤ 'Z') ∨ ('a' ≤ c ∧ c ≤ 'z') ∨ ('0' ≤ c ∧ c ≤ '9') ∨ c = '_'

/-- A text of these characters alone. -/
def IsWord (text : String) : Prop := ∀ c ∈ text.toList, BelongsToWord c

/-- The longest word in front of a text. -/
structure OpensWith (code word : String) : Prop where
  isWord : IsWord word
  inFront : word.toList <+: code.toList
  longest : ∀ other, IsWord other → other.toList <+: code.toList →
    other.toList.length ≤ word.toList.length

/-- What can follow a word without making it longer: nothing, or first another character. -/
def EndsWord (rest : String) : Prop := ∀ c, rest.toList.head? = some c → ¬BelongsToWord c

theorem isWordChar_iff : isWordChar c = true ↔ BelongsToWord c := by
  have hupper : c.isUpper = true ↔ 'A' ≤ c ∧ c ≤ 'Z' := decide_eq_true_iff
  have hlower : c.isLower = true ↔ 'a' ≤ c ∧ c ≤ 'z' :=
    Bool.and_eq_true_iff.trans (and_congr decide_eq_true_iff decide_eq_true_iff)
  have hdigit : c.isDigit = true ↔ '0' ≤ c ∧ c ≤ '9' :=
    Bool.and_eq_true_iff.trans (and_congr decide_eq_true_iff decide_eq_true_iff)
  have hchars : isWordChar c = (c.isUpper || c.isLower || c.isDigit || c == '_') := rfl
  rw [hchars]
  simp only [Bool.or_eq_true, hupper, hlower, hdigit, beq_iff_eq, or_assoc, BelongsToWord]

theorem isWord_iff : IsWord word ↔ ∀ c ∈ word.toList, isWordChar c = true := by
  simp only [IsWord, isWordChar_iff]

/-- A word is told apart from what ends it. -/
theorem openingWord_append (hword : IsWord word) (hrest : EndsWord rest) :
    openingWord (word ++ rest) = word := by
  have hbehind : rest.toList.takeWhile isWordChar = [] := by
    cases hchars : rest.toList with
    | nil => rfl
    | cons c cs =>
      refine List.takeWhile_cons_of_neg fun hc ↦ ?_
      exact hrest c (by rw [hchars, List.head?_cons]) (isWordChar_iff.mp hc)
  rw [openingWord_eq, String.toList_append,
    List.takeWhile_append_of_pos (isWord_iff.mp hword), hbehind, List.append_nil,
    String.ofList_toList]

theorem openingWord_of_isWord (hword : IsWord word) : openingWord word = word := by
  have hends : EndsWord "" := fun c hc ↦ nomatch hc
  simpa only [String.append_empty] using openingWord_append hword hends

theorem opensWith_openingWord (code : String) : OpensWith code (openingWord code) where
  isWord := by
    rw [isWord_iff, openingWord_eq, String.toList_ofList]
    exact List.all_eq_true.mp List.all_takeWhile
  inFront := by
    rw [openingWord_eq, String.toList_ofList]
    exact List.takeWhile_prefix isWordChar
  longest := by
    rintro other hother ⟨behind, hcode⟩
    rw [openingWord_eq, String.toList_ofList, ← hcode,
      List.takeWhile_append_of_pos (isWord_iff.mp hother), List.length_append]
    exact Nat.le_add_right _ _

/-- There is no other longest word. -/
theorem opensWith_iff : OpensWith code word ↔ word = openingWord code := by
  refine ⟨fun h ↦ ?_, fun hword ↦ hword ▸ opensWith_openingWord code⟩
  have hopening := opensWith_openingWord code
  have hle := h.longest _ hopening.isWord hopening.inFront
  have hfront := List.prefix_of_prefix_length_le hopening.inFront h.inFront hle
  have hlength := hopening.longest word h.isWord h.inFront
  exact String.toList_inj.mp (hfront.eq_of_length_le hlength).symm

theorem wordSize_eq_zero_iff : wordSize code = 0 ↔ openingWord code = "" := by
  rw [wordSize_eq, ← openingWord_eq, String.utf8ByteSize_eq_zero_iff]

end Word

section Label

variable {code other word short : String}

/-- The table has one label for each keyword. -/
theorem lookup_keywords_iff : keywords.lookup word = some short ↔ (word, short) ∈ keywords := by
  refine ⟨fun hlookup ↦ ?_, fun hmem ↦ ?_⟩
  · obtain ⟨front, back, hkeywords, -⟩ := List.lookup_eq_some_iff.mp hlookup
    rw [hkeywords]
    exact List.mem_append_right front List.mem_cons_self
  · have hall : (keywords.all fun entry ↦ keywords.lookup entry.1 == some entry.2) = true := by
      decide +kernel
    exact beq_iff_eq.mp (List.all_eq_true.mp hall (word, short) hmem)

theorem ne_empty_of_mem_keywords (h : (word, short) ∈ keywords) : word ≠ "" := by
  have hall : ∀ entry ∈ keywords, entry.1 ≠ "" := by decide +kernel
  exact hall (word, short) h

theorem label_of_empty (h : openingWord code = "") : label code = unknown :=
  if_pos (wordSize_eq_zero_iff.mpr h)

theorem label_of_word (h : openingWord code ≠ "") :
    label code = (keywords.lookup (openingWord code)).getD (openingWord code) :=
  if_neg (mt wordSize_eq_zero_iff.mp h)

/-- Sources that open with the same word have the same label. -/
theorem label_congr (h : openingWord code = openingWord other) : label code = label other := by
  by_cases hempty : openingWord code = ""
  · rw [label_of_empty hempty, label_of_empty (h.symm.trans hempty)]
  · rw [label_of_word hempty, label_of_word (h ▸ hempty), h]

theorem isWord_label (code : String) : IsWord (label code) :=
  isWord_iff.mpr fun _ ↦ isWordChar_of_mem_label

/-- A word that stands for itself as a label. -/
def IsOwnLabel (word : String) : Prop := word ≠ "" ∧ (keywords.lookup word).getD word = word

instance (word : String) : Decidable (IsOwnLabel word) := inferInstanceAs (Decidable (_ ∧ _))

theorem isOwnLabel_label (code : String) : IsOwnLabel (label code) := by
  by_cases hempty : openingWord code = ""
  · rw [label_of_empty hempty]
    decide +kernel
  · rw [label_of_word hempty]
    cases hlookup : keywords.lookup (openingWord code) with
    | none =>
      rw [Option.getD_none]
      refine ⟨hempty, ?_⟩
      rw [hlookup, Option.getD_none]
    | some short =>
      -- the short labels of the table lead to no other ones
      have hall : ∀ entry ∈ keywords, IsOwnLabel entry.2 := by decide +kernel
      exact hall (openingWord code, short) (lookup_keywords_iff.mp hlookup)

theorem label_of_isOwnLabel (hword : IsWord word) (h : IsOwnLabel word) : label word = word := by
  obtain ⟨hsome, hlookup⟩ := h
  have hopening := openingWord_of_isWord hword
  rw [label_of_word (by rw [hopening]; exact hsome), hopening, hlookup]

/-- The label of a source is decided by the longest word in front of it, which ends between two
characters: no word makes it unknown, a keyword has the label of the table, and any other word is its
own label. What follows the word has no part in it. A label is a word and not empty, holds no line
end, and is its own label. -/
theorem label_by_opening_word (code : String) :
    (∃ word, (∀ other, OpensWith code other ↔ other = word) ∧
      (⟨wordSize code⟩ : String.Pos.Raw).IsValid code ∧
      wordSize code = word.utf8ByteSize ∧ openingWord code = word ∧
      (word = "" → label code = "unknown") ∧
      (∀ short, (word, short) ∈ keywords → label code = short) ∧
      (word ≠ "" → (∀ short, (word, short) ∉ keywords) → label code = word)) ∧
    (∀ word rest, IsWord word → EndsWord rest → label (word ++ rest) = label word) ∧
    (label code ≠ "" ∧ IsWord (label code) ∧ '\n' ∉ (label code).toList) ∧
    label (label code) = label code := by
  have hword := isWord_label code
  have hown := isOwnLabel_label code
  refine ⟨⟨openingWord code, fun other ↦ opensWith_iff, isValid_wordSize code, ?_, rfl,
    label_of_empty, fun short hshort ↦ ?_, fun hsome hstrange ↦ ?_⟩, fun word rest hword hrest ↦ ?_,
    ⟨hown.1, hword, fun hfeed ↦ ?_⟩, label_of_isOwnLabel hword hown⟩
  · rw [wordSize_eq, openingWord_eq]
  · rw [label_of_word (ne_empty_of_mem_keywords hshort), lookup_keywords_iff.mpr hshort,
      Option.getD_some]
  · have hnone : keywords.lookup (openingWord code) = none :=
      Option.eq_none_iff_forall_ne_some.mpr fun short hlookup ↦
        hstrange short (lookup_keywords_iff.mp hlookup)
    rw [label_of_word hsome, hnone, Option.getD_none]
  · exact label_congr ((openingWord_append hword hrest).trans (openingWord_of_isWord hword).symm)
  · have hfeed := isWordChar_iff.mpr (hword _ hfeed)
    exact absurd hfeed (by decide)

end Label

end FenceLint.Diagram
