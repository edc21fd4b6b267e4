import FenceLint.Proofs.Json.RoundTrip

/-!
What a fragment of a string is read as where it stands on its own. In the inside of a string every
quote has a backslash in front of it, and outside of strings no token holds a backslash, so no
string begins in a fragment (`string_not_mem_tokens`). Without strings there are no keys, and what
is read without a key is no object with members (`parse?_ne_object`).
-/

set_option autoImplicit false

namespace FenceLint.Json

section Escaped

variable {c : Char} {cs rest : List Char}

/-- No string can be read in a text: a quote with no backslash in front of it has no quote behind
it that would close it. -/
def Stringless (cs : List Char) : Prop :=
  ∀ front rest, cs = front ++ '"' :: rest → '\\' ∉ front → '"' ∉ rest

theorem stringless_nil : Stringless [] := by
  intro front rest h
  exact absurd h.symm (List.append_ne_nil_of_right_ne_nil front (List.cons_ne_nil _ _))

theorem Stringless.cons (hquote : c ≠ '"') (h : Stringless cs) : Stringless (c :: cs) := by
  intro front rest heq hslash
  cases front with
  | nil => exact absurd (List.cons.inj heq).1 hquote
  | cons d front =>
    obtain ⟨-, hcs⟩ := List.cons.inj heq
    exact h front rest hcs fun hmem ↦ hslash (List.mem_cons_of_mem d hmem)

/-- Behind a backslash nothing is read outside of a string. -/
theorem stringless_backslash (cs : List Char) : Stringless ('\\' :: cs) := by
  intro front rest heq hslash
  cases front with
  | nil => exact absurd (List.cons.inj heq).1 (by decide)
  | cons d front =>
    obtain ⟨rfl, -⟩ := List.cons.inj heq
    exact absurd List.mem_cons_self hslash

/-- A last quote opens a string and leaves it open. -/
theorem stringless_quote (h : '"' ∉ cs) : Stringless ('"' :: cs) := by
  intro front rest heq _
  cases front with
  | nil =>
    obtain ⟨-, rfl⟩ := List.cons.inj heq
    exact h
  | cons d front =>
    obtain ⟨-, rfl⟩ := List.cons.inj heq
    exact absurd (List.mem_append_right front List.mem_cons_self) h

theorem stringless_escapeChar (c : Char) (h : Stringless rest) :
    Stringless (escapeChar c ++ rest) := by
  rcases escapeChar_cases c with ⟨letter, -, heq⟩ | ⟨-, heq⟩ | ⟨hquote, -, -, heq⟩
  · rw [heq]
    exact stringless_backslash _
  · rw [heq]
    exact stringless_backslash _
  · rw [heq]
    exact h.cons hquote

/-- The inside of a string does not end the string. -/
theorem readPieces_unclosed (cs : List Char) : readPieces (cs.flatMap escapeChar) = none := by
  induction cs with
  | nil => rfl
  | cons c cs ih =>
    obtain ⟨piece, -, hread⟩ := readPieces_escapeChar c
    rw [List.flatMap_cons, hread, ih, Option.map_none]

end Escaped

section Reading

variable {cs ds after : List Char}

/-- What is left of a text behind a front that holds no backslash. -/
def Leaves (cs after : List Char) : Prop := ∃ front, cs = front ++ after ∧ '\\' ∉ front

theorem Leaves.refl (cs : List Char) : Leaves cs cs := ⟨[], rfl, List.not_mem_nil⟩

theorem Leaves.cons {c : Char} (hslash : c ≠ '\\') (h : Leaves cs after) :
    Leaves (c :: cs) after := by
  obtain ⟨front, rfl, hfront⟩ := h
  refine ⟨c :: front, rfl, fun hmem ↦ ?_⟩
  rcases List.mem_cons.mp hmem with hc | hmem
  · exact hslash hc.symm
  · exact hfront hmem

theorem Leaves.trans (h : Leaves cs ds) (hd : Leaves ds after) : Leaves cs after := by
  obtain ⟨front, rfl, hfront⟩ := h
  obtain ⟨more, rfl, hmore⟩ := hd
  refine ⟨front ++ more, (List.append_assoc _ _ _).symm, fun hmem ↦ ?_⟩
  exact (List.mem_append.mp hmem).elim hfront hmore

theorem Stringless.of_leaves (hcs : Stringless cs) (h : Leaves cs after) : Stringless after := by
  obtain ⟨front, rfl, hfront⟩ := h
  intro more rest heq hmore
  refine hcs (front ++ more) rest (by rw [heq, List.append_assoc]) fun hmem ↦ ?_
  exact (List.mem_append.mp hmem).elim hfront hmore

theorem leaves_dropWhile_isSpace (cs : List Char) : Leaves cs (cs.dropWhile isSpace) := by
  induction cs with
  | nil => exact .refl _
  | cons c cs ih =>
    by_cases hspace : isSpace c = true
    · rw [List.dropWhile_cons_of_pos hspace]
      refine ih.cons ?_
      rintro rfl
      exact absurd hspace (by decide)
    · rw [List.dropWhile_cons_of_neg hspace]
      exact .refl _

theorem leaves_readDigits (cs : List Char) : Leaves cs (Decimal.readDigits cs).2 := by
  induction cs with
  | nil => exact .refl _
  | cons c cs ih =>
    rw [Decimal.readDigits]
    cases hdigit : Decimal.digit? c with
    | none => exact .refl _
    | some d =>
      have hslash : Decimal.digit? '\\' = none := by decide
      refine ih.cons ?_
      rintro rfl
      cases hslash.symm.trans hdigit

theorem leaves_readSign (cs : List Char) : Leaves cs (readSign cs).2 := by
  unfold readSign
  split
  · exact (Leaves.refl _).cons (by decide)
  · exact (Leaves.refl _).cons (by decide)
  · exact .refl _

theorem leaves_readExponent {e? : Option Exponent} (h : readExponent cs = some (e?, after)) :
    Leaves cs after := by
  cases cs with
  | nil =>
    obtain ⟨-, rfl⟩ := Prod.mk.inj (Option.some.inj h)
    exact .refl _
  | cons c cs =>
    by_cases hmark : (c = 'e' || c = 'E') = true
    · have hslash : c ≠ '\\' := by
        rintro rfl
        exact absurd hmark (by decide)
      have hdigits := (leaves_readSign cs).trans (leaves_readDigits (readSign cs).2)
      rw [readExponent, if_pos hmark] at h
      rcases hread : Decimal.readDigits (readSign cs).2 with ⟨_ | ⟨d, more⟩, left⟩
      · rw [hread] at h
        cases h
      · rw [hread] at h hdigits
        obtain ⟨-, rfl⟩ := Prod.mk.inj (Option.some.inj h)
        exact hdigits.cons hslash
    · rw [readExponent, if_neg hmark] at h
      obtain ⟨-, rfl⟩ := Prod.mk.inj (Option.some.inj h)
      exact .refl _

theorem leaves_readFraction {digits : List (Fin 10)} (h : readFraction cs = some (digits, after)) :
    Leaves cs after := by
  unfold readFraction at h
  split at h
  · next rest =>
    have hdigits := leaves_readDigits rest
    rcases hread : Decimal.readDigits rest with ⟨_ | ⟨d, more⟩, left⟩
    · rw [hread] at h
      cases h
    · rw [hread] at h hdigits
      obtain ⟨-, rfl⟩ := Prod.mk.inj (Option.some.inj h)
      exact hdigits.cons (by decide)
  · obtain ⟨-, rfl⟩ := Prod.mk.inj (Option.some.inj h)
    exact .refl _

theorem leaves_readMagnitude {negative : Bool} {n : Number}
    (h : readMagnitude negative cs = some (n, after)) : Leaves cs after := by
  have hdigits := leaves_readDigits cs
  rw [readMagnitude] at h
  rcases hread : Decimal.readDigits cs with ⟨_ | ⟨d, more⟩, left⟩
  · rw [hread] at h
    cases h
  · rw [hread] at h hdigits
    dsimp only at h
    split at h
    · cases h
    · simp only [Option.bind_eq_bind, Option.bind_eq_some_iff, Option.pure_def] at h
      obtain ⟨⟨fraction, behind⟩, hfraction, ⟨exponent, last⟩, hexponent, h⟩ := h
      obtain ⟨-, rfl⟩ := Prod.mk.inj (Option.some.inj h)
      exact (hdigits.trans (leaves_readFraction hfraction)).trans (leaves_readExponent hexponent)

/-- A string is read only where a quote closes it. -/
theorem quote_mem_of_readPieces {read : List Piece × List Char} (h : readPieces cs = some read) :
    '"' ∈ cs := by
  fun_induction readPieces cs generalizing read with
  | case1 => cases h
  | case2 rest => exact List.mem_cons_self
  | case3 a b c d rest ih =>
    simp only [Option.bind_eq_bind, Option.bind_eq_some_iff] at h
    obtain ⟨-, -, more, hrest, -⟩ := h
    simp only [List.mem_cons, ih hrest, or_true]
  | case4 c rest hne ih =>
    simp only [Option.bind_eq_bind, Option.bind_eq_some_iff] at h
    obtain ⟨-, -, more, hrest, -⟩ := h
    simp only [List.mem_cons, ih hrest, or_true]
  | case5 => cases h
  | case6 c rest _ _ _ _ ih =>
    simp only [Option.bind_eq_bind, Option.bind_eq_some_iff] at h
    obtain ⟨more, hrest, -⟩ := h
    exact List.mem_cons_of_mem c (ih hrest)

/-- One token of a text in which no string can be read is no string, and holds no backslash. -/
theorem readToken_stringless {t : Token} (hcs : Stringless cs)
    (h : readToken cs = some (t, after)) : (∀ s, t ≠ .string s) ∧ Leaves cs after := by
  unfold readToken at h
  split at h
  case h_7 rest =>
    obtain ⟨read, hread, -⟩ := Option.map_eq_some_iff.mp h
    exact absurd (quote_mem_of_readPieces hread) (hcs [] rest rfl List.not_mem_nil)
  case h_11 rest =>
    obtain ⟨⟨n, left⟩, hread, h⟩ := Option.map_eq_some_iff.mp h
    obtain ⟨rfl, rfl⟩ := Prod.mk.inj h
    exact ⟨nofun, (leaves_readMagnitude hread).cons (by decide)⟩
  case h_12 =>
    obtain ⟨⟨n, left⟩, hread, h⟩ := Option.map_eq_some_iff.mp h
    obtain ⟨rfl, rfl⟩ := Prod.mk.inj h
    exact ⟨nofun, leaves_readMagnitude hread⟩
  all_goals
    obtain ⟨rfl, rfl⟩ := Prod.mk.inj (Option.some.inj h)
    refine ⟨nofun, ?_⟩
    repeat' first | exact .refl _ | refine Leaves.cons (by decide) ?_

/-- A text in which no string can be read has no string among its tokens. -/
theorem string_not_mem_tokens {ts : List Token} (hcs : Stringless cs) (h : tokens cs = some ts)
    (s : Option String) : .string s ∉ ts := by
  induction hlength : cs.length using Nat.strongRecOn generalizing cs ts with
  | ind n ih =>
    have hspace := leaves_dropWhile_isSpace cs
    have hle : (cs.dropWhile isSpace).length ≤ cs.length :=
      (List.dropWhile_suffix (l := cs) isSpace).length_le
    rw [tokens_eq] at h
    cases hdrop : cs.dropWhile isSpace with
    | nil =>
      rw [hdrop] at h
      obtain rfl := Option.some.inj h
      exact List.not_mem_nil
    | cons c rest =>
      simp only [hdrop, Option.bind_eq_some_iff, Option.map_eq_some_iff] at h hspace hle
      obtain ⟨⟨t, after⟩, hread, more, hmore, rfl⟩ := h
      have hrest := hcs.of_leaves hspace
      obtain ⟨ht, hleaves⟩ := readToken_stringless hrest hread
      have hlt := length_readToken hread
      have hnone := ih after.length (by omega) (hrest.of_leaves hleaves) hmore rfl
      intro hmem
      rcases List.mem_cons.mp hmem with hstring | hmem
      · exact ht s hstring.symm
      · exact hnone hmem

end Reading

section Parsing

/-- A value that is no object with members. -/
def Bare (v : Json) : Prop := ∀ m rest, v ≠ .object (m :: rest)

/-- Only arrays are open. -/
def OnlyArrays (stack : List Frame) : Prop := ∀ frame ∈ stack, ∃ items, frame = .array items

theorem OnlyArrays.cons {stack : List Frame} (h : OnlyArrays stack) (items : List Json) :
    OnlyArrays (.array items :: stack) :=
  List.forall_mem_cons.mpr ⟨⟨items, rfl⟩, h⟩

namespace Parsing

/-- Where the parser can stand as long as it has met no string. An object is open only right after
its brace, since without a key it can do nothing but close again. -/
def Keyless : Parsing → Prop
  | ⟨stack, .firstKey⟩ => ∃ below, stack = .object [] :: below ∧ OnlyArrays below
  | ⟨_, .key⟩ => False
  | ⟨_, .colon⟩ => False
  | ⟨_, .done v⟩ => Bare v
  | ⟨stack, _⟩ => OnlyArrays stack

theorem keyless_start : start.Keyless := fun _ hmem ↦ absurd hmem List.not_mem_nil

variable {p q : Parsing} {stack : List Frame} {t : Token} {v : Json}

theorem Keyless.deliver (hstack : OnlyArrays stack) (hv : Bare v)
    (h : deliver v stack = some q) : q.Keyless := by
  cases stack with
  | nil =>
    obtain rfl := Option.some.inj h
    exact hv
  | cons frame below =>
    obtain ⟨⟨items, rfl⟩, hbelow⟩ := List.forall_mem_cons.mp hstack
    obtain rfl := Option.some.inj h
    exact OnlyArrays.cons hbelow (v :: items)

theorem Keyless.openValue (hstack : OnlyArrays stack) (ht : ∀ s, t ≠ .string s)
    (h : openValue stack t = some q) : q.Keyless := by
  cases t with
  | null => exact Keyless.deliver (v := .null) hstack nofun h
  | bool b => exact Keyless.deliver (v := .bool b) hstack nofun h
  | number n => exact Keyless.deliver (v := .number n) hstack nofun h
  | string s => exact absurd rfl (ht s)
  | openArray =>
    obtain rfl := Option.some.inj h
    exact OnlyArrays.cons hstack []
  | openObject =>
    obtain rfl := Option.some.inj h
    exact ⟨stack, rfl, hstack⟩
  | closeArray => exact nomatch h
  | closeObject => exact nomatch h
  | comma => exact nomatch h
  | colon => exact nomatch h

/-- One token that is no string. -/
theorem Keyless.step (hp : p.Keyless) (ht : ∀ s, t ≠ .string s) (h : p.step t = some q) :
    q.Keyless := by
  obtain ⟨stack, expected⟩ := p
  cases expected with
  | value => exact Keyless.openValue hp ht h
  | firstItem =>
    by_cases hclose : t = .closeArray
    · subst hclose
      cases stack with
      | nil => exact nomatch h
      | cons frame below =>
        obtain ⟨⟨items, rfl⟩, hbelow⟩ := List.forall_mem_cons.mp hp
        exact Keyless.deliver (v := .array []) hbelow nofun h
    · rw [step_firstItem hclose] at h
      exact Keyless.openValue hp ht h
  | firstKey =>
    obtain ⟨below, rfl, hbelow⟩ := hp
    cases t with
    | closeObject => exact Keyless.deliver (v := .object []) hbelow nofun h
    | string s => exact absurd rfl (ht s)
    | _ => exact nomatch h
  | key => exact hp.elim
  | colon => exact hp.elim
  | separator =>
    cases stack with
    | nil => exact nomatch h
    | cons frame below =>
      obtain ⟨⟨items, rfl⟩, hbelow⟩ := List.forall_mem_cons.mp hp
      cases t with
      | comma =>
        obtain rfl := Option.some.inj h
        exact hp
      | closeArray => exact Keyless.deliver (v := .array items.reverse) hbelow nofun h
      | _ => exact nomatch h
  | done v => exact nomatch h

/-- Any number of tokens without a string among them. -/
theorem Keyless.steps {ts : List Token} (hp : p.Keyless) (ht : ∀ s, .string s ∉ ts)
    (h : p.steps ts = some q) : q.Keyless := by
  induction ts generalizing p with
  | nil =>
    obtain rfl := Option.some.inj h
    exact hp
  | cons t ts ih =>
    obtain ⟨r, hr, hrest⟩ := Option.bind_eq_some_iff.mp h
    have hstep : ∀ s, t ≠ .string s := by
      rintro s rfl
      exact ht s List.mem_cons_self
    exact ih (hp.step hstep hr) (fun s hmem ↦ ht s (List.mem_cons_of_mem t hmem)) hrest

end Parsing

/-- A text in which no string can be read is no object with members. -/
theorem parse?_ne_object {s : String} (hs : Stringless s.toList) (m : Option String × Json)
    (rest : List (Option String × Json)) : parse? s ≠ some (.object (m :: rest)) := by
  intro h
  simp only [parse?, Option.bind_eq_bind, Option.bind_eq_some_iff] at h
  obtain ⟨ts, hts, p, hp, hresult⟩ := h
  have hkeyless := Parsing.keyless_start.steps (string_not_mem_tokens hs hts) hp
  obtain ⟨stack, expected⟩ := p
  cases expected with
  | done v =>
    obtain rfl := Option.some.inj hresult
    exact hkeyless m rest rfl
  | _ => cases hresult

end Parsing

end FenceLint.Json
