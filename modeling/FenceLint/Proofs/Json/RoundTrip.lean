import FenceLint.Json.Parser
import FenceLint.Proofs.Json.Token

/-!
Reading undoes writing: `parse?_compact` gives back every value from its compact text, numbers with
the digits they were written with and objects with the order of their members. A value goes through
its tokens (`flat`): the text is cut into them (`tokens_compactChars`), and the parser, wherever it
expects a value, delivers the one whose tokens it reads (`steps_flat`).
-/

set_option autoImplicit false

namespace FenceLint.Json

mutual

/-- The tokens of a value. -/
def flat : Json → List Token
  | .null => [.null]
  | .bool b => [.bool b]
  | .number n => [.number n]
  | .string s => [.string s]
  | .array items => .openArray :: flatItems items ++ [.closeArray]
  | .object members => .openObject :: flatMembers members ++ [.closeObject]

/-- The tokens of items. -/
def flatItems : List Json → List Token
  | [] => []
  | [v] => flat v
  | v :: w :: rest => flat v ++ .comma :: flatItems (w :: rest)

/-- The tokens of members. -/
def flatMembers : List (Option String × Json) → List Token
  | [] => []
  | [(k, v)] => .string k :: .colon :: flat v
  | (k, v) :: m :: rest => .string k :: .colon :: flat v ++ .comma :: flatMembers (m :: rest)

end

section Text

/-- A token that is no number is read before whatever follows. -/
theorem tokens_append {t : Token} (h : t.isNumber = false) (rest : List Char) :
    tokens (t.spell ++ rest) = (tokens rest).map (t :: ·) :=
  tokens_spell t fun hn ↦ absurd hn (by simp [h])

theorem ends_comma (rest : List Char) : Ends (',' :: rest) := ends_cons (by decide)

theorem ends_closeArray (rest : List Char) : Ends (']' :: rest) := ends_cons (by decide)

theorem ends_closeObject (rest : List Char) : Ends ('}' :: rest) := ends_cons (by decide)

mutual

/-- The text of a value is cut into its tokens. -/
theorem tokens_compactChars (v : Json) (rest : List Char) (h : Ends rest) :
    tokens (compactChars v ++ rest) = (tokens rest).map (flat v ++ ·) := by
  cases v with
  | null => exact tokens_append (t := .null) rfl rest
  | bool b =>
    cases b with
    | true => exact tokens_append (t := .bool true) rfl rest
    | false => exact tokens_append (t := .bool false) rfl rest
  | number n => exact tokens_spell (.number n) fun _ ↦ h
  | string s => exact tokens_append (t := .string s) rfl rest
  | array items =>
    have hopen := tokens_append (t := .openArray) rfl (compactItems items ++ ']' :: rest)
    have hitems := tokens_compactItems items (']' :: rest) (ends_closeArray rest)
    have hclose := tokens_append (t := .closeArray) rfl rest
    simp only [Token.spell, List.cons_append, List.nil_append] at hopen hclose
    simp only [compactChars, List.cons_append, List.append_assoc, List.nil_append]
    rw [hopen, hitems, hclose]
    simp [flat, Function.comp_def]
  | object members =>
    have hopen := tokens_append (t := .openObject) rfl (compactMembers members ++ '}' :: rest)
    have hmembers := tokens_compactMembers members ('}' :: rest) (ends_closeObject rest)
    have hclose := tokens_append (t := .closeObject) rfl rest
    simp only [Token.spell, List.cons_append, List.nil_append] at hopen hclose
    simp only [compactChars, List.cons_append, List.append_assoc, List.nil_append]
    rw [hopen, hmembers, hclose]
    simp [flat, Function.comp_def]

theorem tokens_compactItems (items : List Json) (rest : List Char) (h : Ends rest) :
    tokens (compactItems items ++ rest) = (tokens rest).map (flatItems items ++ ·) := by
  match items with
  | [] => simp [compactItems, flatItems]
  | [v] => simpa [compactItems, flatItems] using tokens_compactChars v rest h
  | v :: w :: more =>
    have hv := tokens_compactChars v (',' :: (compactItems (w :: more) ++ rest)) (ends_comma _)
    have hcomma := tokens_append (t := .comma) rfl (compactItems (w :: more) ++ rest)
    have hmore := tokens_compactItems (w :: more) rest h
    simp only [Token.spell, List.cons_append, List.nil_append] at hcomma
    rw [compactItems, List.append_assoc, List.cons_append, hv, hcomma, hmore]
    simp [flatItems, Function.comp_def]

theorem tokens_compactMembers (members : List (Option String × Json)) (rest : List Char)
    (h : Ends rest) :
    tokens (compactMembers members ++ rest) = (tokens rest).map (flatMembers members ++ ·) := by
  match members with
  | [] => simp [compactMembers, flatMembers]
  | [(k, v)] =>
    have hk := tokens_append (t := .string k) rfl (':' :: (compactChars v ++ rest))
    have hcolon := tokens_append (t := .colon) rfl (compactChars v ++ rest)
    have hv := tokens_compactChars v rest h
    simp only [Token.spell, List.cons_append, List.nil_append] at hk hcolon
    rw [compactMembers, List.append_assoc, List.cons_append, hk, hcolon, hv]
    simp [flatMembers, Function.comp_def]
  | (k, v) :: m :: more =>
    have hk := tokens_append (t := .string k) rfl
      (':' :: (compactChars v ++ ',' :: (compactMembers (m :: more) ++ rest)))
    have hcolon := tokens_append (t := .colon) rfl
      (compactChars v ++ ',' :: (compactMembers (m :: more) ++ rest))
    have hv := tokens_compactChars v (',' :: (compactMembers (m :: more) ++ rest)) (ends_comma _)
    have hcomma := tokens_append (t := .comma) rfl (compactMembers (m :: more) ++ rest)
    have hmore := tokens_compactMembers (m :: more) rest h
    simp only [Token.spell, List.cons_append, List.nil_append] at hk hcolon hcomma
    rw [compactMembers]
    simp only [List.append_assoc, List.cons_append]
    rw [hk, hcolon, hv, hcomma, hmore]
    simp [flatMembers, Function.comp_def]

end

end Text

section Parsing

open Parsing

theorem steps_cons {p q : Parsing} {t : Token} (h : p.step t = some q) (ts : List Token) :
    p.steps (t :: ts) = q.steps ts := by
  rw [steps, h, Option.bind_some]

theorem deliver_item (v : Json) (items : List Json) (below : List Frame) :
    deliver v (.array items :: below) = some ⟨.array (v :: items) :: below, .separator⟩ := rfl

theorem deliver_member (v : Json) (members : List (Option String × Json)) (key : Option String)
    (below : List Frame) :
    deliver v (.member members key :: below) =
      some ⟨.object ((key, v) :: members) :: below, .separator⟩ := rfl

/-- Right after a bracket has opened, whatever does not close it is read as a value. -/
theorem step_firstItem {stack : List Frame} {t : Token} (h : t ≠ .closeArray) :
    step ⟨stack, .firstItem⟩ t = step ⟨stack, .value⟩ t := by
  rcases stack with _ | ⟨_ | _ | _, _⟩ <;> cases t <;> first | rfl | exact absurd rfl h

/-- The tokens of a value do not start with a closing bracket. -/
theorem exists_flat_eq_cons (v : Json) : ∃ t ts, flat v = t :: ts ∧ t ≠ .closeArray := by
  cases v <;> exact ⟨_, _, rfl, by simp⟩

theorem exists_flatItems_eq_cons (v : Json) (rest : List Json) :
    ∃ t ts, flatItems (v :: rest) = t :: ts ∧ t ≠ .closeArray := by
  obtain ⟨t, ts, hflat, hne⟩ := exists_flat_eq_cons v
  cases rest with
  | nil => exact ⟨t, ts, hflat, hne⟩
  | cons w rest =>
    refine ⟨t, ts ++ .comma :: flatItems (w :: rest), ?_, hne⟩
    rw [flatItems, hflat]
    rfl

theorem exists_flatMembers_eq_cons (m : Option String × Json)
    (rest : List (Option String × Json)) :
    ∃ ts, flatMembers (m :: rest) = .string m.1 :: ts := by
  cases rest <;> exact ⟨_, rfl⟩

mutual

/-- Where a value is expected, its tokens deliver it. -/
theorem steps_flat (v : Json) (stack : List Frame) (ts : List Token) :
    steps ⟨stack, .value⟩ (flat v ++ ts) = (deliver v stack).bind fun p ↦ p.steps ts := by
  cases v with
  | null => rfl
  | bool b => rfl
  | number n => rfl
  | string s => rfl
  | array items =>
    have hitems := steps_flatItems items [] stack ts
    match items with
    | [] => rfl
    | v :: rest =>
      obtain ⟨t, more, hflat, hne⟩ := exists_flatItems_eq_cons v rest
      have hdeliver := hitems (List.cons_ne_nil v rest)
      rw [hflat] at hdeliver
      simp only [flat, hflat, List.cons_append, List.append_assoc, List.nil_append] at hdeliver ⊢
      rw [steps_cons (q := ⟨.array [] :: stack, .firstItem⟩) rfl, steps, step_firstItem hne]
      exact hdeliver
  | object members =>
    have hmembers := steps_flatMembers members [] stack ts
    match members with
    | [] => rfl
    | m :: rest =>
      obtain ⟨more, hflat⟩ := exists_flatMembers_eq_cons m rest
      have hdeliver := hmembers (List.cons_ne_nil m rest)
      rw [hflat] at hdeliver
      simp only [flat, hflat, List.cons_append, List.append_assoc, List.nil_append] at hdeliver ⊢
      rw [steps_cons (q := ⟨.object [] :: stack, .firstKey⟩) rfl]
      exact hdeliver

/-- The tokens of items and a closing bracket deliver the array. -/
theorem steps_flatItems (items before : List Json) (below : List Frame) (ts : List Token)
    (hne : items ≠ []) :
    steps ⟨.array before :: below, .value⟩ (flatItems items ++ .closeArray :: ts) =
      (deliver (.array (before.reverse ++ items)) below).bind fun p ↦ p.steps ts := by
  match items with
  | [v] =>
    rw [flatItems, steps_flat v, deliver_item, Option.bind_some, ← List.reverse_cons]
    rfl
  | v :: w :: more =>
    have hmore := steps_flatItems (w :: more) (v :: before) below ts (List.cons_ne_nil w more)
    rw [flatItems, List.append_assoc, steps_flat v, List.cons_append, deliver_item,
      Option.bind_some, steps_cons (q := ⟨.array (v :: before) :: below, .value⟩) rfl, hmore]
    simp only [List.reverse_cons, List.append_assoc, List.cons_append, List.nil_append]

/-- The tokens of members and a closing brace deliver the object. -/
theorem steps_flatMembers (members before : List (Option String × Json)) (below : List Frame)
    (ts : List Token) (hne : members ≠ []) :
    steps ⟨.object before :: below, .key⟩ (flatMembers members ++ .closeObject :: ts) =
      (deliver (.object (before.reverse ++ members)) below).bind fun p ↦ p.steps ts := by
  match members with
  | [(k, v)] =>
    rw [flatMembers, List.cons_append, List.cons_append,
      steps_cons (q := ⟨.member before k :: below, .colon⟩) rfl,
      steps_cons (q := ⟨.member before k :: below, .value⟩) rfl, steps_flat v, deliver_member,
      Option.bind_some, ← List.reverse_cons]
    rfl
  | (k, v) :: m :: more =>
    have hmore := steps_flatMembers (m :: more) ((k, v) :: before) below ts
      (List.cons_ne_nil m more)
    rw [flatMembers]
    simp only [List.append_assoc, List.cons_append]
    rw [steps_cons (q := ⟨.member before k :: below, .colon⟩) rfl,
      steps_cons (q := ⟨.member before k :: below, .value⟩) rfl, steps_flat v, deliver_member,
      Option.bind_some, steps_cons (q := ⟨.object ((k, v) :: before) :: below, .key⟩) rfl, hmore]
    simp only [List.reverse_cons, List.append_assoc, List.cons_append, List.nil_append]

end

/-- A text that is cut into the tokens of a value is read as that value. -/
theorem parse?_of_tokens {s : String} {v : Json} (h : tokens s.toList = some (flat v)) :
    parse? s = some v := by
  have hsteps : steps start (flat v) = some ⟨[], .done v⟩ := by
    have h := steps_flat v [] []
    rwa [List.append_nil] at h
  simp only [parse?, h, Option.bind_eq_bind, Option.bind_some, hsteps, result?]

theorem tokens_nil : tokens [] = some [] := by rw [tokens_eq]; rfl

/-- Reading undoes writing. -/
theorem parse?_compact (v : Json) : parse? v.compact = some v := by
  refine parse?_of_tokens ?_
  have h := tokens_compactChars v [] ends_nil
  simpa [compact, tokens_nil] using h

end Parsing

end FenceLint.Json
