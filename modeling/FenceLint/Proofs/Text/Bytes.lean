import Mathlib.Data.String.Basic

/-!
The order of texts by their bytes. In UTF-8 the bytes of a character come before those of every
character with a greater number, whatever bytes follow either of them, so that the order of texts by
characters is the order by bytes.
-/

set_option autoImplicit false

namespace FenceLint.Text

/-- The bytes of a text. -/
def bytes (text : String) : List UInt8 := text.toByteArray.data.toList

/-- Whether a text comes before another in the order of their bytes. -/
def BytesBefore (a b : String) : Prop := List.Lex (· < ·) (bytes a) (bytes b)

theorem bytes_eq_flatMap (text : String) :
    bytes text = text.toList.flatMap String.utf8EncodeChar := by
  rw [bytes, ← String.utf8Encode_toList, List.utf8Encode, List.toList_data_toByteArray]

section Encoding

variable {a b : ℕ} {as bs : List UInt8}

theorem lex_of_lt (hab : a < b) (hb : b < 256) :
    List.Lex (· < ·) (UInt8.ofNat a :: as) (UInt8.ofNat b :: bs) := by
  refine .rel (UInt8.lt_iff_toNat_lt.mpr ?_)
  rw [UInt8.toNat_ofNat', UInt8.toNat_ofNat', Nat.mod_eq_of_lt (hab.trans hb), Nat.mod_eq_of_lt hb]
  exact hab

/-- The first byte decides, unless the two are the same. -/
theorem lex_of_le (hab : a ≤ b) (hb : b < 256) (h : a = b → List.Lex (· < ·) as bs) :
    List.Lex (· < ·) (UInt8.ofNat a :: as) (UInt8.ofNat b :: bs) := by
  rcases hab.lt_or_eq with hlt | rfl
  · exact lex_of_lt hlt hb
  · exact .cons (h rfl)

/-- A character with a smaller number has smaller bytes, whatever follows. -/
theorem lex_utf8EncodeChar {c d : Char} (h : c < d) (cs ds : List UInt8) :
    List.Lex (· < ·) (String.utf8EncodeChar c ++ cs) (String.utf8EncodeChar d ++ ds) := by
  have hlt : c.val.toNat < d.val.toNat := UInt32.lt_iff_toNat_lt.mp h
  have hd : d.val.toNat < 0x110000 := by
    rcases d.valid with hsmall | ⟨-, hsmall⟩ <;> omega
  unfold String.utf8EncodeChar
  generalize c.val.toNat = v at *
  generalize d.val.toNat = w at *
  dsimp only
  split_ifs
  all_goals try omega
  all_goals simp only [List.cons_append, List.nil_append]
  -- a longer encoding has a greater first byte, and a single byte is the number itself
  all_goals try exact lex_of_lt (by omega) (by omega)
  -- encodings of the same length hold the digits of the numbers to the base of 64
  · exact lex_of_le (by omega) (by omega) fun _ ↦ lex_of_lt (by omega) (by omega)
  · exact lex_of_le (by omega) (by omega) fun _ ↦ lex_of_le (by omega) (by omega) fun _ ↦
      lex_of_lt (by omega) (by omega)
  · exact lex_of_le (by omega) (by omega) fun _ ↦ lex_of_le (by omega) (by omega) fun _ ↦
      lex_of_le (by omega) (by omega) fun _ ↦ lex_of_lt (by omega) (by omega)

end Encoding

theorem lex_flatMap_utf8EncodeChar {cs ds : List Char} (h : List.Lex (· < ·) cs ds) :
    List.Lex (· < ·) (cs.flatMap String.utf8EncodeChar) (ds.flatMap String.utf8EncodeChar) := by
  induction h with
  | nil =>
    rw [List.flatMap_nil, List.flatMap_cons]
    obtain ⟨byte, more, hbytes⟩ := List.exists_cons_of_ne_nil String.utf8EncodeChar_ne_nil
    rw [hbytes, List.cons_append]
    exact .nil
  | cons _ ih =>
    rw [List.flatMap_cons, List.flatMap_cons]
    exact List.Lex.append_left _ ih _
  | rel hlt =>
    rw [List.flatMap_cons, List.flatMap_cons]
    exact lex_utf8EncodeChar hlt _ _

/-- What comes first by its characters comes first by its bytes. -/
theorem bytesBefore_of_lt {a b : String} (h : a < b) : BytesBefore a b := by
  rw [BytesBefore, bytes_eq_flatMap, bytes_eq_flatMap]
  exact lex_flatMap_utf8EncodeChar (String.lt_iff_toList_lt.mp h)

theorem not_bytesBefore_self (text : String) : ¬BytesBefore text text :=
  List.lt_irrefl (bytes text)

end FenceLint.Text
