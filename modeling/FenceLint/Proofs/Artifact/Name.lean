import FenceLint.Artifact.Name
import FenceLint.Proofs.Disk.Path

/-!
What the name of a block file tells. The number of the document is in front and ends at the first
character that is no digit, and the index of the block is read from the end, so neither depends on
the stem between them, which may hold dashes, digits and `-block-` of its own. Hence files of
different blocks have different names.
-/

set_option autoImplicit false

namespace FenceLint

namespace Decimal

/-- The digits of a number with zeros in front up to a width. -/
def paddedDigits (width n : Nat) : List (Fin 10) :=
  List.replicate (width - (digits n).length) zeroDigit ++ digits n

theorem padded_eq_map (width n : Nat) : padded width n = (paddedDigits width n).map digitChar := by
  rw [padded, paddedDigits, chars, List.map_append, List.map_replicate, List.length_map]
  rfl

theorem le_length_paddedDigits (width n : Nat) : width ≤ (paddedDigits width n).length := by
  rw [paddedDigits, List.length_append, List.length_replicate]
  omega

/-- Zeros in front do not count. -/
theorem value_paddedDigits (width n : Nat) : value (paddedDigits width n) = n := by
  have hzeros (k : Nat) (ds : List (Fin 10)) :
      value (List.replicate k zeroDigit ++ ds) = value ds := by
    induction k with
    | zero => rfl
    | succ k ih => exact ih
  rw [paddedDigits, hzeros, value_digits]

/-- A digit is none of the characters that mean something in a path or a name. -/
theorem digitChar_ne (d : Fin 10) {c : Char} (h : digit? c = none) : digitChar d ≠ c := by
  rintro rfl
  exact nomatch (digit?_digitChar d).symm.trans h

end Decimal

/-- A name that stands for something in a directory itself: below any directory it is one more
component, which leads nowhere else. -/
structure Path.Entry (name : String) : Prop where
  parts : ∀ dir, Path.parts (dir ++ "/" ++ name) = Path.parts dir ++ [name]
  proper : name ≠ "" ∧ name ≠ "." ∧ name ≠ ".."

namespace Artifact

/-- The number of the document of a block file, read off its name. -/
def readDocument (name : String) : Nat :=
  Decimal.value (Decimal.readDigits name.toList).1

/-- The index of the block, read backwards from the extension. -/
def readIndex (name : String) : Nat :=
  Decimal.value (Decimal.readDigits (name.toList.reverse.drop ".mmd".length)).1.reverse

/-- The form of the name of a block file: three digits or more, a stem of plain characters, and
digits again. -/
structure Formed (name : String) (document : List (Fin 10)) (stem : List Char)
    (index : List (Fin 10)) : Prop where
  eq : name.toList = document.map Decimal.digitChar ++ '-' :: stem ++ "-block-".toList ++
    index.map Decimal.digitChar ++ ".mmd".toList
  document : 3 ≤ document.length
  stem_ne_nil : stem ≠ []
  stem_plain : ∀ c ∈ stem, isPlain c = true
  index_ne_nil : index ≠ []

section

variable {name : String} {document index : List (Fin 10)} {stem : List Char}

theorem Formed.readDocument (h : Formed name document stem index) :
    readDocument name = Decimal.value document := by
  rw [Artifact.readDocument, h.eq]
  simp only [List.append_assoc, List.cons_append]
  rw [Decimal.readDigits_map_digitChar]
  rintro c ⟨⟩
  rfl

theorem Formed.readIndex (h : Formed name document stem index) :
    readIndex name = Decimal.value index := by
  -- Read from the end, the index ends at the last dash of `-block-`.
  have hend : name.toList.reverse.drop ".mmd".length =
      index.reverse.map Decimal.digitChar ++ '-' :: ("kcolb-".toList ++
        (document.map Decimal.digitChar ++ '-' :: stem).reverse) := by
    rw [h.eq, List.reverse_append, List.reverse_append, List.reverse_append, ← List.map_reverse]
    rfl
  rw [Artifact.readIndex, hend, Decimal.readDigits_map_digitChar, List.reverse_reverse]
  rintro c ⟨⟩
  rfl

/-- No character of a name separates the components of a path. -/
theorem Formed.slash_not_mem (h : Formed name document stem index) : '/' ∉ name.toList := by
  have hdigits (ds : List (Fin 10)) : '/' ∉ ds.map Decimal.digitChar := by
    intro hmem
    obtain ⟨d, -, hd⟩ := List.mem_map.mp hmem
    exact Decimal.digitChar_ne d rfl hd
  have hstem : '/' ∉ stem := by
    intro hmem
    exact nomatch h.stem_plain '/' hmem
  have hmiddle : '/' ∉ "-block-".toList := by decide
  have hextension : '/' ∉ ".mmd".toList := by decide
  simp only [h.eq, List.mem_append, List.mem_cons, not_or]
  exact ⟨⟨⟨⟨hdigits document, by decide, hstem⟩, hmiddle⟩, hdigits index⟩, hextension⟩

/-- A file of that name is in the directory itself, whatever the directory. -/
theorem Formed.entry (h : Formed name document stem index) : Path.Entry name where
  parts := by
    intro dir
    rw [Path.parts_append_slash, Path.parts_of_not_mem h.slash_not_mem]
  proper := by
    have hlength : 3 ≤ name.toList.length := by
      have hdigits := h.document
      rw [h.eq]
      simp only [List.length_append, List.length_map]
      omega
    refine ⟨?_, ?_, ?_⟩
    · rintro rfl
      exact absurd hlength (by decide)
    · rintro rfl
      exact absurd hlength (by decide)
    · rintro rfl
      exact absurd hlength (by decide)

end

/-- The stem is some plain characters whatever the source is called. -/
theorem stem_plain (source : String) :
    stem source ≠ [] ∧ ∀ c ∈ stem source, isPlain c = true := by
  have hplain : "document".toList.all isPlain = true := by decide
  have hdocument : "document".toList ≠ [] ∧ ∀ c ∈ "document".toList, isPlain c = true :=
    ⟨List.cons_ne_nil _ _, List.all_eq_true.mp hplain⟩
  unfold stem
  split
  · exact hdocument
  · rename_i name _
    dsimp only
    split
    · exact hdocument
    · rename_i hne
      refine ⟨hne, fun c hc ↦ ?_⟩
      obtain ⟨c', -, rfl⟩ := List.mem_map.mp hc
      by_cases hkeeps : isPlain c' = true
      · rwa [if_pos hkeeps]
      · rw [if_neg hkeeps]
        rfl

/-- The name of a block file is formed from the two numbers. -/
theorem fileName_formed (document : Nat) (source : String) (index : Nat) :
    Formed (fileName document source index) (Decimal.paddedDigits 3 document) (stem source)
      (Decimal.digits index) where
  eq := by
    rw [fileName, String.toList_ofList, nameChars, Decimal.padded_eq_map, Decimal.chars]
  document := Decimal.le_length_paddedDigits 3 document
  stem_ne_nil := (stem_plain source).1
  stem_plain := (stem_plain source).2
  index_ne_nil := Decimal.digits_ne_nil index

@[simp] theorem readDocument_fileName (document : Nat) (source : String) (index : Nat) :
    readDocument (fileName document source index) = document :=
  (fileName_formed document source index).readDocument.trans (Decimal.value_paddedDigits 3 document)

@[simp] theorem readIndex_fileName (document : Nat) (source : String) (index : Nat) :
    readIndex (fileName document source index) = index :=
  (fileName_formed document source index).readIndex.trans (Decimal.value_digits index)

end Artifact

end FenceLint
