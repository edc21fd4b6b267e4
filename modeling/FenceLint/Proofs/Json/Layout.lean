import FenceLint.Proofs.Json.RoundTrip

/-!
The two layouts of a value. Compact text is one line of characters that can be shown
(`shown_compactChars`), since a control character inside a string is always escaped. Laid out text
differs from it only in white space between tokens, so it is cut into the same tokens
(`tokens_prettyChars`) and read as the same value (`parse?_pretty`).
-/

set_option autoImplicit false

namespace FenceLint.Json

section Compact

/-- A text without control characters. -/
def Shown (cs : List Char) : Prop := ∀ c ∈ cs, 32 ≤ c.toNat

instance (cs : List Char) : Decidable (Shown cs) :=
  decidable_of_iff (cs.all fun c ↦ 32 ≤ c.toNat) (by simp [Shown])

theorem shown_nil : Shown [] := fun _ hc ↦ absurd hc List.not_mem_nil

variable {c : Char} {cs ds : List Char}

theorem Shown.cons (hc : 32 ≤ c.toNat) (h : Shown cs) : Shown (c :: cs) :=
  List.forall_mem_cons.mpr ⟨hc, h⟩

theorem Shown.append (h : Shown cs) (hd : Shown ds) : Shown (cs ++ ds) :=
  List.forall_mem_append.mpr ⟨h, hd⟩

theorem le_toNat_hexChar : ∀ n < 16, 32 ≤ (hexChar n).toNat := by decide

theorem le_toNat_digitChar : ∀ d, 32 ≤ (Decimal.digitChar d).toNat := by decide

/-- A letter behind a backslash is no control character, whatever it stands for. -/
theorem le_toNat_of_simpleEscape? {letter : Char} (h : simpleEscape? letter = some c) :
    32 ≤ letter.toNat := by
  have hnone : ∀ n < 32, simpleEscape? (Char.ofNat n) = none := by decide
  by_contra hlt
  have hletter := hnone letter.toNat (by omega)
  rw [Char.ofNat_toNat, h] at hletter
  exact nomatch hletter

theorem shown_escapeChar (c : Char) : Shown (escapeChar c) := by
  have hslash : 32 ≤ '\\'.toNat := by decide
  rcases escapeChar_cases c with ⟨letter, hletter, h⟩ | ⟨hlt, h⟩ | ⟨-, -, hge, h⟩
  · rw [h]
    exact .cons hslash (.cons (le_toNat_of_simpleEscape? hletter) shown_nil)
  · have hhigh := le_toNat_hexChar (c.toNat / 16) (by omega)
    have hlow := le_toNat_hexChar (c.toNat % 16) (by omega)
    rw [h]
    exact .cons hslash (.cons (by decide) (.cons (by decide) (.cons (by decide)
      (.cons hhigh (.cons hlow shown_nil)))))
  · rw [h]
    exact .cons hge shown_nil

theorem shown_flatMap_escapeChar (cs : List Char) : Shown (cs.flatMap escapeChar) := by
  intro d hd
  obtain ⟨c, -, hc⟩ := List.mem_flatMap.mp hd
  exact shown_escapeChar c d hc

theorem shown_quoted (s : Option String) : Shown (quoted s) := by
  cases s with
  | none => decide
  | some s =>
    have hinside := shown_flatMap_escapeChar s.toList
    exact .cons (by decide) (hinside.append (.cons (by decide) shown_nil))

theorem shown_digits (ds : List (Fin 10)) : Shown (ds.map Decimal.digitChar) := by
  intro c hc
  obtain ⟨d, -, rfl⟩ := List.mem_map.mp hc
  exact le_toNat_digitChar d

theorem shown_exponentChars (e? : Option Exponent) : Shown (exponentChars e?) := by
  cases e? with
  | none => exact shown_nil
  | some e =>
    refine .append (.cons ?_ ?_) (shown_digits _)
    · cases e.capital <;> decide
    · rcases e.sign with _ | _ | _ <;> decide

theorem shown_fractionChars (ds : List (Fin 10)) : Shown (fractionChars ds) := by
  cases ds with
  | nil => exact shown_nil
  | cons d ds => exact .cons (by decide) (shown_digits (d :: ds))

theorem Number.shown_chars (n : Number) : Shown n.chars := by
  rw [n.chars_eq]
  refine .append ?_ (.append (shown_digits _)
    (.append (shown_fractionChars n.fraction) (shown_exponentChars n.exponent)))
  cases n.negative <;> decide

mutual

/-- Compact text holds no control character. -/
theorem shown_compactChars (v : Json) : Shown (compactChars v) := by
  cases v with
  | null => decide
  | bool b => cases b <;> decide
  | number n => exact n.shown_chars
  | string s => exact shown_quoted s
  | array items =>
    exact .cons (by decide) ((shown_compactItems items).append (.cons (by decide) shown_nil))
  | object members =>
    exact .cons (by decide) ((shown_compactMembers members).append (.cons (by decide) shown_nil))

theorem shown_compactItems (items : List Json) : Shown (compactItems items) := by
  match items with
  | [] => exact shown_nil
  | [v] => exact shown_compactChars v
  | v :: w :: more =>
    exact (shown_compactChars v).append (.cons (by decide) (shown_compactItems (w :: more)))

theorem shown_compactMembers (members : List (Option String × Json)) :
    Shown (compactMembers members) := by
  match members with
  | [] => exact shown_nil
  | [(k, v)] => exact (shown_quoted k).append (.cons (by decide) (shown_compactChars v))
  | (k, v) :: m :: more =>
    exact ((shown_quoted k).append (.cons (by decide) (shown_compactChars v))).append
      (.cons (by decide) (shown_compactMembers (m :: more)))

end

end Compact

section Pretty

/-- A line break and the indentation behind it are passed over. -/
theorem tokens_freshLine (depth : Nat) (rest : List Char) :
    tokens (freshLine depth ++ rest) = tokens rest := by
  rw [freshLine, List.cons_append, tokens_space (by decide)]
  induction 2 * depth with
  | zero => rfl
  | succ n ih => rw [List.replicate_succ, List.cons_append, tokens_space (by decide), ih]

theorem ends_freshLine (depth : Nat) (rest : List Char) : Ends (freshLine depth ++ rest) :=
  ends_cons (by decide)

/-- A colon and the blank behind it are one token. -/
theorem tokens_colon (rest : List Char) :
    tokens (':' :: ' ' :: rest) = (tokens rest).map (.colon :: ·) := by
  have h := tokens_append (t := .colon) rfl (' ' :: rest)
  rwa [tokens_space (by decide)] at h

mutual

/-- The laid out text of a value is cut into its tokens. -/
theorem tokens_prettyChars (v : Json) (depth : Nat) (rest : List Char) (h : Ends rest) :
    tokens (prettyChars depth v ++ rest) = (tokens rest).map (flat v ++ ·) := by
  match v with
  | .null => exact tokens_append (t := .null) rfl rest
  | .bool true => exact tokens_append (t := .bool true) rfl rest
  | .bool false => exact tokens_append (t := .bool false) rfl rest
  | .number n => exact tokens_spell (.number n) fun _ ↦ h
  | .string s => exact tokens_append (t := .string s) rfl rest
  | .array [] => exact tokens_compactChars (.array []) rest h
  | .object [] => exact tokens_compactChars (.object []) rest h
  | .array (v :: more) =>
    have hopen := tokens_append (t := .openArray) rfl
      (prettyItems (depth + 1) (v :: more) ++ (freshLine depth ++ ']' :: rest))
    have hitems := tokens_prettyItems (v :: more) (depth + 1) (freshLine depth ++ ']' :: rest)
      (ends_freshLine _ _)
    have hclose := tokens_append (t := .closeArray) rfl rest
    simp only [Token.spell, List.cons_append, List.nil_append] at hopen hclose
    simp only [prettyChars, List.cons_append, List.append_assoc, List.nil_append]
    rw [hopen, hitems, tokens_freshLine, hclose]
    simp [flat, Function.comp_def]
  | .object (m :: more) =>
    have hopen := tokens_append (t := .openObject) rfl
      (prettyMembers (depth + 1) (m :: more) ++ (freshLine depth ++ '}' :: rest))
    have hmembers := tokens_prettyMembers (m :: more) (depth + 1) (freshLine depth ++ '}' :: rest)
      (ends_freshLine _ _)
    have hclose := tokens_append (t := .closeObject) rfl rest
    simp only [Token.spell, List.cons_append, List.nil_append] at hopen hclose
    simp only [prettyChars, List.cons_append, List.append_assoc, List.nil_append]
    rw [hopen, hmembers, tokens_freshLine, hclose]
    simp [flat, Function.comp_def]

theorem tokens_prettyItems (items : List Json) (depth : Nat) (rest : List Char) (h : Ends rest) :
    tokens (prettyItems depth items ++ rest) = (tokens rest).map (flatItems items ++ ·) := by
  match items with
  | [] => simp [prettyItems, flatItems]
  | [v] =>
    rw [prettyItems, List.append_assoc, tokens_freshLine, tokens_prettyChars v depth rest h]
    rfl
  | v :: w :: more =>
    have hv := tokens_prettyChars v depth (',' :: (prettyItems depth (w :: more) ++ rest))
      (ends_comma _)
    have hcomma := tokens_append (t := .comma) rfl (prettyItems depth (w :: more) ++ rest)
    have hmore := tokens_prettyItems (w :: more) depth rest h
    simp only [Token.spell, List.cons_append, List.nil_append] at hcomma
    rw [prettyItems]
    simp only [List.append_assoc, List.cons_append]
    rw [tokens_freshLine, hv, hcomma, hmore]
    simp [flatItems, Function.comp_def]

theorem tokens_prettyMembers (members : List (Option String × Json)) (depth : Nat)
    (rest : List Char) (h : Ends rest) :
    tokens (prettyMembers depth members ++ rest) =
      (tokens rest).map (flatMembers members ++ ·) := by
  match members with
  | [] => simp [prettyMembers, flatMembers]
  | [(k, v)] =>
    have hk := tokens_append (t := .string k) rfl (':' :: ' ' :: (prettyChars depth v ++ rest))
    have hv := tokens_prettyChars v depth rest h
    simp only [Token.spell] at hk
    rw [prettyMembers]
    simp only [List.append_assoc, List.cons_append]
    rw [tokens_freshLine, hk, tokens_colon, hv]
    simp [flatMembers, Function.comp_def]
  | (k, v) :: m :: more =>
    have hk := tokens_append (t := .string k) rfl
      (':' :: ' ' :: (prettyChars depth v ++ ',' :: (prettyMembers depth (m :: more) ++ rest)))
    have hv := tokens_prettyChars v depth (',' :: (prettyMembers depth (m :: more) ++ rest))
      (ends_comma _)
    have hcomma := tokens_append (t := .comma) rfl (prettyMembers depth (m :: more) ++ rest)
    have hmore := tokens_prettyMembers (m :: more) depth rest h
    simp only [Token.spell, List.cons_append, List.nil_append] at hk hcomma
    rw [prettyMembers]
    simp only [List.append_assoc, List.cons_append]
    rw [tokens_freshLine, hk, tokens_colon, hv, hcomma, hmore]
    simp [flatMembers, Function.comp_def]

end

/-- Reading undoes laying out. -/
theorem parse?_pretty (v : Json) : parse? v.pretty = some v := by
  refine parse?_of_tokens ?_
  have h := tokens_prettyChars v 0 [] ends_nil
  simpa [pretty, tokens_nil] using h

end Pretty

end FenceLint.Json
