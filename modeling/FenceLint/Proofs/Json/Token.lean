import FenceLint.Json.Printer
import FenceLint.Json.Token
import Mathlib.Tactic.FinCases
import Mathlib.Data.Fintype.Basic

/-!
The spelling of a token is read as that token. Numbers are the only tokens without a mark at their
end, so a number is read as it was written only where nothing follows that would continue it
(`Ends`). `tokens_spell` is what values are put together from.
-/

set_option autoImplicit false

namespace FenceLint.Json

section Strings

variable {rest : List Char}

/-- A piece that stands for one character whatever comes after it. -/
def Piece.Means (piece : Piece) (c : Char) : Prop :=
  ∀ more, textOf (piece :: more) = (textOf more).map (c :: ·)

theorem Piece.means_char (c : Char) : (Piece.char c).Means c := fun _ ↦ rfl

theorem Piece.means_unit {c : Char} (h : c.toNat < 32) : (Piece.unit c.toNat).Means c := by
  intro more
  have hhigh : isHighUnit c.toNat = false := by
    simp only [isHighUnit, Bool.and_eq_false_iff, decide_eq_false_iff_not]
    omega
  have hlow : isLowUnit c.toNat = false := by
    simp only [isLowUnit, Bool.and_eq_false_iff, decide_eq_false_iff_not]
    omega
  rw [textOf.eq_def]
  simp [hhigh, hlow]

theorem readPieces_simple {c e : Char} (h : simpleEscape? c = some e) :
    readPieces ('\\' :: c :: rest) = (readPieces rest).map fun r ↦ (.char e :: r.1, r.2) := by
  have hne : c ≠ 'u' := by
    rintro rfl
    simp [simpleEscape?] at h
  rw [readPieces, h]
  · cases readPieces rest <;> rfl
  · intro _ _ _ _ _ hc
    exact absurd hc hne

theorem readPieces_unit {a b c d : Char} {n : Nat} (h : hexQuad? a b c d = some n) :
    readPieces ('\\' :: 'u' :: a :: b :: c :: d :: rest) =
      (readPieces rest).map fun r ↦ (.unit n :: r.1, r.2) := by
  rw [readPieces, h]
  cases readPieces rest <;> rfl

theorem readPieces_plain {c : Char} (hquote : c ≠ '"') (hslash : c ≠ '\\') (hge : 32 ≤ c.toNat) :
    readPieces (c :: rest) = (readPieces rest).map fun r ↦ (.char c :: r.1, r.2) := by
  rw [readPieces.eq_5 c rest hquote (fun _ _ _ _ _ h ↦ absurd h hslash)
    fun _ _ h ↦ absurd h hslash, if_neg (by simp [hslash, hge])]
  cases readPieces rest <;> rfl

theorem hexDigit?_hexChar : ∀ n < 16, hexDigit? (hexChar n) = some n := by decide

/-- The four digits by which a control character is written. -/
theorem hexQuad?_control {n : Nat} (h : n < 32) :
    hexQuad? '0' '0' (hexChar (n / 16)) (hexChar (n % 16)) = some n := by
  have hzero : hexDigit? '0' = some 0 := rfl
  have hhigh := hexDigit?_hexChar (n / 16) (by omega)
  have hlow := hexDigit?_hexChar (n % 16) (by omega)
  simp only [hexQuad?, hzero, hhigh, hlow, Option.bind_eq_bind, Option.bind_some, Option.pure_def,
    Option.some.injEq]
  omega

/-- The three ways in which a character is written inside a string. -/
theorem escapeChar_cases (c : Char) :
    (∃ letter, simpleEscape? letter = some c ∧ escapeChar c = ['\\', letter]) ∨
      (c.toNat < 32 ∧ escapeChar c =
        ['\\', 'u', '0', '0', hexChar (c.toNat / 16), hexChar (c.toNat % 16)]) ∨
      (c ≠ '"' ∧ c ≠ '\\' ∧ 32 ≤ c.toNat ∧ escapeChar c = [c]) := by
  by_cases hsimple : c ∈ ['"', '\\', '\x08', '\t', '\n', '\x0c', '\r']
  · left
    simp only [List.mem_cons, List.not_mem_nil, or_false] at hsimple
    rcases hsimple with rfl | rfl | rfl | rfl | rfl | rfl | rfl
    exacts [⟨'"', rfl, rfl⟩, ⟨'\\', rfl, rfl⟩, ⟨'b', rfl, rfl⟩, ⟨'t', rfl, rfl⟩, ⟨'n', rfl, rfl⟩,
      ⟨'f', rfl, rfl⟩, ⟨'r', rfl, rfl⟩]
  · right
    simp only [List.mem_cons, List.not_mem_nil, or_false, not_or] at hsimple
    obtain ⟨hquote, hslash, h8, h9, h10, h12, h13⟩ := hsimple
    simp only [escapeChar, if_neg hquote, if_neg hslash, if_neg h8, if_neg h9, if_neg h10,
      if_neg h12, if_neg h13]
    by_cases hlt : c.toNat < 32
    · exact Or.inl ⟨hlt, if_pos hlt⟩
    · exact Or.inr ⟨hquote, hslash, Nat.le_of_not_lt hlt, if_neg hlt⟩

/-- A character is read back from its escaped form. -/
theorem readPieces_escapeChar (c : Char) : ∃ piece : Piece, piece.Means c ∧ ∀ rest,
    readPieces (escapeChar c ++ rest) = (readPieces rest).map fun r ↦ (piece :: r.1, r.2) := by
  rcases escapeChar_cases c with ⟨letter, hletter, h⟩ | ⟨hlt, h⟩ | ⟨hquote, hslash, hge, h⟩
  · exact ⟨.char c, Piece.means_char c, fun rest ↦ h ▸ readPieces_simple hletter⟩
  · refine ⟨.unit c.toNat, Piece.means_unit hlt, ?_⟩
    intro rest
    exact h ▸ readPieces_unit (hexQuad?_control hlt)
  · exact ⟨.char c, Piece.means_char c, fun rest ↦ h ▸ readPieces_plain hquote hslash hge⟩

/-- The inside of a string is read up to its closing quote, and stands for the text it was written
from. -/
theorem readPieces_escaped (cs : List Char) : ∃ pieces, textOf pieces = some cs ∧
    ∀ rest, readPieces (cs.flatMap escapeChar ++ '"' :: rest) = some (pieces, rest) := by
  induction cs with
  | nil => exact ⟨[], rfl, fun rest ↦ by rw [List.flatMap_nil, List.nil_append, readPieces]⟩
  | cons c cs ih =>
    obtain ⟨piece, hpiece, hread⟩ := readPieces_escapeChar c
    obtain ⟨pieces, htext, hrest⟩ := ih
    refine ⟨piece :: pieces, by rw [hpiece, htext]; rfl, fun rest ↦ ?_⟩
    rw [List.flatMap_cons, List.append_assoc, hread, hrest]
    rfl

/-- A string is read as it was written, with a text or without one. -/
theorem readToken_quoted (s : Option String) (rest : List Char) :
    readToken (quoted s ++ rest) = some (.string s, rest) := by
  cases s with
  | none =>
    have hhalf : hexQuad? 'd' '8' '0' '0' = some 0xD800 := by decide
    simp [quoted, readToken, readPieces, hhalf, textOf, isHighUnit]
  | some s =>
    obtain ⟨pieces, htext, hread⟩ := readPieces_escaped s.toList
    simp [quoted, quote, readToken, hread, htext]

end Strings

section Numbers

/-- A text that does not continue a number in front of it. -/
def Ends (rest : List Char) : Prop :=
  ∀ c ∈ rest.head?, Decimal.digit? c = none ∧ c ≠ '.' ∧ c ≠ 'e' ∧ c ≠ 'E'

variable {rest : List Char}

theorem ends_nil : Ends [] := by simp [Ends]

theorem ends_cons {c : Char} (h : Decimal.digit? c = none ∧ c ≠ '.' ∧ c ≠ 'e' ∧ c ≠ 'E') :
    Ends (c :: rest) := by
  simpa [Ends] using h

theorem readToken_digitChar (d : Fin 10) (cs : List Char) :
    readToken (Decimal.digitChar d :: cs) =
      (readMagnitude false (Decimal.digitChar d :: cs)).map fun r ↦ (.number r.1, r.2) := by
  fin_cases d <;> rfl

theorem isSpace_digitChar (d : Fin 10) : isSpace (Decimal.digitChar d) = false := by
  fin_cases d <;> rfl

theorem readSign_digitChar (d : Fin 10) (cs : List Char) :
    readSign (Decimal.digitChar d :: cs) = (none, Decimal.digitChar d :: cs) := by
  fin_cases d <;> rfl

/-- The fraction of a number as it is written. -/
def fractionChars (ds : List (Fin 10)) : List Char :=
  if ds.isEmpty then [] else '.' :: ds.map Decimal.digitChar

/-- The exponent of a number as it is written, if there is one. -/
def exponentChars : Option Exponent → List Char
  | none => []
  | some e => e.chars

theorem Number.chars_eq (n : Number) :
    n.chars = (if n.negative then ['-'] else []) ++
      (Decimal.chars n.whole ++ (fractionChars n.fraction ++ exponentChars n.exponent)) := by
  simp only [Number.chars, List.append_assoc, fractionChars]
  cases n.exponent <;> rfl

/-- An exponent, or what ends a number, is neither a digit nor a point. -/
theorem head_exponentChars (e? : Option Exponent) (h : Ends rest) :
    ∀ c ∈ (exponentChars e? ++ rest).head?, Decimal.digit? c = none ∧ c ≠ '.' := by
  cases e? with
  | none => exact fun c hc ↦ ⟨(h c hc).1, (h c hc).2.1⟩
  | some e =>
    intro c hc
    simp only [exponentChars, Exponent.chars, List.cons_append, List.head?_cons,
      Option.mem_def, Option.some.injEq] at hc
    subst hc
    split <;> decide

theorem head_fractionChars (ds : List (Fin 10)) (e? : Option Exponent) (h : Ends rest) :
    ∀ c ∈ (fractionChars ds ++ (exponentChars e? ++ rest)).head?, Decimal.digit? c = none := by
  cases ds with
  | nil => exact fun c hc ↦ (head_exponentChars e? h c hc).1
  | cons d ds =>
    intro c hc
    obtain rfl : '.' = c := by simpa [fractionChars] using hc
    decide

theorem readExponent_exponentChars (e? : Option Exponent) (h : Ends rest) :
    readExponent (exponentChars e? ++ rest) = some (e?, rest) := by
  cases e? with
  | none =>
    cases rest with
    | nil => rfl
    | cons c rest =>
      obtain ⟨-, -, he, hE⟩ := h c rfl
      simp [exponentChars, readExponent, he, hE]
  | some e =>
    have hdigits := Decimal.readDigits_map_digitChar (e.first :: e.rest) fun c hc ↦ (h c hc).1
    obtain ⟨capital, sign, first, ds⟩ := e
    simp only [List.map_cons, List.cons_append] at hdigits
    rcases sign with _ | sign
    · cases capital <;>
        simp [exponentChars, Exponent.chars, readExponent, readSign_digitChar, hdigits]
    · cases sign <;> cases capital <;>
        simp [exponentChars, Exponent.chars, readExponent, readSign, hdigits]

theorem readFraction_fractionChars (ds : List (Fin 10)) (e? : Option Exponent) (h : Ends rest) :
    readFraction (fractionChars ds ++ (exponentChars e? ++ rest)) =
      some (ds, exponentChars e? ++ rest) := by
  have hhead := head_exponentChars e? h
  generalize exponentChars e? ++ rest = after at hhead
  cases ds with
  | nil =>
    refine readFraction.eq_2 after fun r hr ↦ ?_
    exact (hhead '.' (by rw [hr]; rfl)).2 rfl
  | cons d ds =>
    have hdigits := Decimal.readDigits_map_digitChar (d :: ds) fun c hc ↦ (hhead c hc).1
    simp only [List.map_cons, List.cons_append] at hdigits
    simp [fractionChars, readFraction, hdigits]

/-- A number without its sign is read as it was written. -/
theorem readMagnitude_chars (n : Number) (h : Ends rest) :
    readMagnitude n.negative (Decimal.chars n.whole ++
      (fractionChars n.fraction ++ (exponentChars n.exponent ++ rest))) = some (n, rest) := by
  have hdigits := Decimal.readDigits_map_digitChar (Decimal.digits n.whole)
    (head_fractionChars n.fraction n.exponent h)
  have hvalue := Decimal.value_digits n.whole
  rw [readMagnitude, Decimal.chars, hdigits]
  cases hd : Decimal.digits n.whole with
  | nil => exact absurd hd (Decimal.digits_ne_nil _)
  | cons d ds =>
    have hlead : ¬ (d.val = 0 ∧ ds ≠ []) := fun hz ↦ hz.2 (Decimal.digits_tail_eq_nil hd hz.1)
    rw [hd] at hvalue
    simp only [Bool.and_eq_true, decide_eq_true_eq, Bool.not_eq_eq_eq_not, Bool.not_true,
      List.isEmpty_eq_false_iff, if_neg hlead, readFraction_fractionChars n.fraction n.exponent h,
      readExponent_exponentChars n.exponent h, hvalue, Option.bind_eq_bind, Option.bind_some,
      Option.pure_def]

/-- A number is read as it was written. -/
theorem readToken_number (n : Number) (h : Ends rest) :
    readToken (n.chars ++ rest) = some (.number n, rest) := by
  have hread := readMagnitude_chars n h
  rw [Number.chars_eq]
  cases hneg : n.negative with
  | true =>
    rw [hneg] at hread
    simp [readToken, hread]
  | false =>
    rw [hneg] at hread
    cases hd : Decimal.digits n.whole with
    | nil => exact absurd hd (Decimal.digits_ne_nil _)
    | cons d ds =>
      simp only [Decimal.chars, hd, List.map_cons, List.cons_append] at hread
      simp [Decimal.chars, hd, readToken_digitChar, hread]

end Numbers

section Tokens

/-- A token as it is written. -/
def Token.spell : Token → List Char
  | .null => ['n', 'u', 'l', 'l']
  | .bool true => ['t', 'r', 'u', 'e']
  | .bool false => ['f', 'a', 'l', 's', 'e']
  | .number n => n.chars
  | .string s => quoted s
  | .openArray => ['[']
  | .closeArray => [']']
  | .openObject => ['{']
  | .closeObject => ['}']
  | .comma => [',']
  | .colon => [':']

/-- Whether a token is a number. -/
def Token.isNumber : Token → Bool
  | .number _ => true
  | _ => false

/-- A token is read from its spelling. -/
theorem readToken_spell (t : Token) {rest : List Char} (h : t.isNumber → Ends rest) :
    readToken (t.spell ++ rest) = some (t, rest) := by
  cases t with
  | number n => exact readToken_number n (h rfl)
  | string s => exact readToken_quoted s rest
  | bool b => cases b <;> rfl
  | _ => rfl

/-- A token does not start with white space. -/
theorem exists_spell_eq_cons (t : Token) : ∃ c cs, t.spell = c :: cs ∧ isSpace c = false := by
  cases t with
  | number n =>
    rw [Token.spell, Number.chars_eq]
    cases n.negative with
    | true => exact ⟨_, _, rfl, rfl⟩
    | false =>
      cases hd : Decimal.digits n.whole with
      | nil => exact absurd hd (Decimal.digits_ne_nil _)
      | cons d ds =>
        rw [Decimal.chars, hd]
        exact ⟨_, _, rfl, isSpace_digitChar d⟩
  | string s => cases s <;> exact ⟨_, _, rfl, rfl⟩
  | bool b => cases b <;> exact ⟨_, _, rfl, rfl⟩
  | _ => exact ⟨_, _, rfl, rfl⟩

/-- The tokens of a text, one after the other. -/
theorem tokens_eq (cs : List Char) :
    tokens cs = match cs.dropWhile isSpace with
      | [] => some []
      | c :: rest => (readToken (c :: rest)).bind fun r ↦ (tokens r.2).map (r.1 :: ·) := by
  rw [tokens]
  split
  · next hnil => rw [hnil]
  · next c rest hcons =>
    split
    · next hnone => simp only [hcons, hnone, Option.bind_none]
    · next t after hsome => simp only [hcons, hsome, Option.bind_some]

/-- A text that opens with a token is cut behind it. -/
theorem tokens_of_readToken {c : Char} {cs after : List Char} {t : Token}
    (hspace : isSpace c = false) (hread : readToken (c :: cs) = some (t, after)) :
    tokens (c :: cs) = (tokens after).map (t :: ·) := by
  have hdrop : (c :: cs).dropWhile isSpace = c :: cs :=
    List.dropWhile_cons_of_neg (by simp [hspace])
  rw [tokens_eq, hdrop]
  simp only [hread, Option.bind_some]

/-- White space between tokens is passed over. -/
theorem tokens_space {c : Char} (h : isSpace c = true) (rest : List Char) :
    tokens (c :: rest) = tokens rest := by
  rw [tokens_eq, tokens_eq rest, List.dropWhile_cons_of_pos h]

/-- A token and what follows it are read one after the other. -/
theorem tokens_spell (t : Token) {rest : List Char} (h : t.isNumber → Ends rest) :
    tokens (t.spell ++ rest) = (tokens rest).map (t :: ·) := by
  obtain ⟨c, cs, hspell, hspace⟩ := exists_spell_eq_cons t
  have hread := readToken_spell t h
  rw [hspell, List.cons_append] at hread ⊢
  exact tokens_of_readToken hspace hread

end Tokens

end FenceLint.Json
