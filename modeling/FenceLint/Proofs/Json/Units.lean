import FenceLint.Proofs.Json.RoundTrip

/-!
Strings of sixteen-bit units. A writer that keeps its texts in UTF-16 may hold a half of a surrogate
pair without the other half. It writes a pair as its character, a lone half by its number, and every
other unit as `escapeChar` does. Such a string is always read to its closing quote, and it stands
for the text of its units (`exists_spells`); but there is a text only where every half stands beside
its other half (`unitsText?_isSome_iff`).
-/

set_option autoImplicit false

namespace FenceLint.Json

/-- The character of a surrogate pair. -/
def pairChar (u w : UInt16) : Char :=
  Char.ofNat (0x10000 + (u.toNat - 0xD800) * 0x400 + (w.toNat - 0xDC00))

/-- A unit by its number. -/
def unitEscape (u : UInt16) : List Char :=
  let n := u.toNat
  ['\\', 'u', hexChar (n / 4096), hexChar (n / 256 % 16), hexChar (n / 16 % 16), hexChar (n % 16)]

/-- A unit that belongs to no pair. -/
def escapeUnit (u : UInt16) : List Char :=
  if isHighUnit u.toNat || isLowUnit u.toNat then unitEscape u else escapeChar (Char.ofNat u.toNat)

/-- The inside of a string as it is written by its units. -/
def escapeUnits : List UInt16 → List Char
  | [] => []
  | [u] => escapeUnit u
  | u :: w :: more =>
    if isHighUnit u.toNat && isLowUnit w.toNat then pairChar u w :: escapeUnits more
    else escapeUnit u ++ escapeUnits (w :: more)

/-- The text of some units, if they have one. -/
def unitsText? (us : List UInt16) : Option (List Char) :=
  textOf (us.map fun u ↦ .unit u.toNat)

/-- Every half of a surrogate pair stands beside its other half. -/
inductive Paired : List UInt16 → Prop
  | nil : Paired []
  | unit (u : UInt16) (rest : List UInt16) (hhigh : isHighUnit u.toNat = false)
      (hlow : isLowUnit u.toNat = false) (hrest : Paired rest) : Paired (u :: rest)
  | pair (u w : UInt16) (rest : List UInt16) (hhigh : isHighUnit u.toNat = true)
      (hlow : isLowUnit w.toNat = true) (hrest : Paired rest) : Paired (u :: w :: rest)

section Text

variable {n : Nat} {pieces : List Piece}

theorem isHighUnit_of_isLowUnit (h : isLowUnit n = true) : isHighUnit n = false := by
  simp only [isLowUnit, Bool.and_eq_true, decide_eq_true_eq] at h
  simp only [isHighUnit, Bool.and_eq_false_iff, decide_eq_false_iff_not]
  omega

theorem textOf_plain (hhigh : isHighUnit n = false) (hlow : isLowUnit n = false) :
    textOf (.unit n :: pieces) = (textOf pieces).map (Char.ofNat n :: ·) := by
  rw [textOf.eq_def]
  simp [hhigh, hlow]

theorem textOf_pair {m : Nat} (hhigh : isHighUnit n = true) (hlow : isLowUnit m = true) :
    textOf (.unit n :: .unit m :: pieces) = (textOf pieces).map
      (Char.ofNat (0x10000 + (n - 0xD800) * 0x400 + (m - 0xDC00)) :: ·) := by
  rw [textOf.eq_def]
  simp [hhigh, hlow]

theorem textOf_low (hlow : isLowUnit n = true) : textOf (.unit n :: pieces) = none := by
  rw [textOf.eq_def]
  simp [isHighUnit_of_isLowUnit hlow, hlow]

/-- A first half leaves no text unless a second half follows. -/
theorem textOf_high (hhigh : isHighUnit n = true)
    (h : ∀ m, pieces.head? = some (.unit m) → isLowUnit m = false) :
    textOf (.unit n :: pieces) = none := by
  rw [textOf.eq_def]
  cases pieces with
  | nil => simp [hhigh]
  | cons piece more =>
    cases piece with
    | char c => simp [hhigh]
    | unit m => simp [hhigh, h m rfl]

/-- A half without its other half leaves no text, whatever follows it. -/
theorem textOf_lone (h : isHighUnit n = true ∨ isLowUnit n = true)
    (hnext : isHighUnit n = true → ∀ m, pieces.head? = some (.unit m) → isLowUnit m = false) :
    textOf (.unit n :: pieces) = none := by
  rcases h with hhigh | hlow
  · exact textOf_high hhigh (hnext hhigh)
  · exact textOf_low hlow

end Text

section Units

variable {u : UInt16} {rest : List UInt16}

/-- No pair begins with this unit. -/
def Single (u : UInt16) (rest : List UInt16) : Prop :=
  isHighUnit u.toNat = true → ∀ w, rest.head? = some w → isLowUnit w.toNat = false

theorem escapeUnits_single (h : Single u rest) :
    escapeUnits (u :: rest) = escapeUnit u ++ escapeUnits rest := by
  cases rest with
  | nil => simp [escapeUnits]
  | cons w more =>
    rw [escapeUnits, if_neg]
    simp only [Bool.and_eq_true, not_and, Bool.not_eq_true]
    exact fun hhigh ↦ h hhigh w rfl

/-- Units are none at all, a pair and more, or a unit that begins no pair and more. -/
theorem units_cases {motive : List UInt16 → Prop} (nil : motive [])
    (pair : ∀ u w rest, isHighUnit u.toNat = true → isLowUnit w.toNat = true → motive rest →
      motive (u :: w :: rest))
    (single : ∀ u rest, Single u rest → motive rest → motive (u :: rest)) (us : List UInt16) :
    motive us := by
  fun_induction escapeUnits us with
  | case1 => exact nil
  | case2 u => exact single u [] (fun _ w hw ↦ nomatch hw) nil
  | case3 u w more h ih =>
    obtain ⟨hhigh, hlow⟩ := Bool.and_eq_true_iff.mp h
    exact pair u w more hhigh hlow ih
  | case4 u w more h ih =>
    refine single u (w :: more) ?_ ih
    rintro hhigh x ⟨⟩
    simpa [hhigh] using h

/-- The pieces of the units behind a first half do not begin with a second half. -/
theorem Single.units (h : Single u rest) (hhigh : isHighUnit u.toNat = true) :
    ∀ m, (rest.map fun w ↦ Piece.unit w.toNat).head? = some (.unit m) → isLowUnit m = false := by
  intro m hm
  rw [List.head?_map, Option.map_eq_some_iff] at hm
  obtain ⟨w, hw, hm⟩ := hm
  rw [← Piece.unit.inj hm]
  exact h hhigh w hw

/-- Units stand for a text just when every half stands beside its other half. -/
theorem unitsText?_isSome_iff (us : List UInt16) : (unitsText? us).isSome = true ↔ Paired us := by
  constructor
  · induction us using units_cases with
    | nil => exact fun _ ↦ .nil
    | pair u w rest hhigh hlow ih =>
      intro h
      rw [unitsText?, List.map_cons, List.map_cons, textOf_pair hhigh hlow, Option.isSome_map] at h
      exact .pair u w rest hhigh hlow (ih h)
    | single u rest hsingle ih =>
      intro h
      rw [unitsText?, List.map_cons] at h
      by_cases hhalf : isHighUnit u.toNat = true ∨ isLowUnit u.toNat = true
      · rw [textOf_lone hhalf hsingle.units] at h
        exact nomatch h
      · simp only [not_or, Bool.not_eq_true] at hhalf
        rw [textOf_plain hhalf.1 hhalf.2, Option.isSome_map] at h
        exact .unit u rest hhalf.1 hhalf.2 (ih h)
  · intro h
    induction h with
    | nil => rfl
    | unit u rest hhigh hlow hrest ih =>
      rwa [unitsText?, List.map_cons, textOf_plain hhigh hlow, Option.isSome_map]
    | pair u w rest hhigh hlow hrest ih =>
      rwa [unitsText?, List.map_cons, List.map_cons, textOf_pair hhigh hlow, Option.isSome_map]

end Units

section Reading

theorem hexQuad?_unit (u : UInt16) :
    hexQuad? (hexChar (u.toNat / 4096)) (hexChar (u.toNat / 256 % 16)) (hexChar (u.toNat / 16 % 16))
      (hexChar (u.toNat % 16)) = some u.toNat := by
  have hlt : u.toNat < 65536 := u.toNat_lt
  have h3 := hexDigit?_hexChar (u.toNat / 4096) (by omega)
  have h2 := hexDigit?_hexChar (u.toNat / 256 % 16) (by omega)
  have h1 := hexDigit?_hexChar (u.toNat / 16 % 16) (by omega)
  have h0 := hexDigit?_hexChar (u.toNat % 16) (by omega)
  simp only [hexQuad?, h3, h2, h1, h0, Option.bind_eq_bind, Option.bind_some, Option.pure_def,
    Option.some.injEq]
  omega

theorem readPieces_unitEscape (u : UInt16) (rest : List Char) :
    readPieces (unitEscape u ++ rest) =
      (readPieces rest).map fun r ↦ (.unit u.toNat :: r.1, r.2) :=
  readPieces_unit (hexQuad?_unit u)

theorem toNat_pairChar {u w : UInt16} (hhigh : isHighUnit u.toNat = true)
    (hlow : isLowUnit w.toNat = true) : 0x10000 ≤ (pairChar u w).toNat := by
  simp only [isHighUnit, isLowUnit, Bool.and_eq_true, decide_eq_true_eq] at hhigh hlow
  have hvalid : (0x10000 + (u.toNat - 0xD800) * 0x400 + (w.toNat - 0xDC00)).isValidChar := by
    rw [Nat.isValidChar]
    omega
  have hnumber : (pairChar u w).toNat =
      0x10000 + (u.toNat - 0xD800) * 0x400 + (w.toNat - 0xDC00) := by
    rw [pairChar, Char.ofNat, dif_pos hvalid]
    rfl
  omega

/-- The pieces that are read stand for the text of the units, and a second half is read in front
only where one is written in front. -/
structure Spells (us : List UInt16) (pieces : List Piece) : Prop where
  read : ∀ rest, readPieces (escapeUnits us ++ '"' :: rest) = some (pieces, rest)
  text : textOf pieces = unitsText? us
  front : ∀ m, pieces.head? = some (.unit m) → isLowUnit m = true →
    ∃ u, us.head? = some u ∧ isLowUnit u.toNat = true

variable {u w : UInt16} {rest : List UInt16} {pieces : List Piece}

theorem Spells.pair (h : Spells rest pieces) (hhigh : isHighUnit u.toNat = true)
    (hlow : isLowUnit w.toNat = true) :
    Spells (u :: w :: rest) (.char (pairChar u w) :: pieces) where
  read after := by
    have hge := toNat_pairChar hhigh hlow
    have hne {c : Char} (hc : c.toNat < 0x10000) : pairChar u w ≠ c := by
      rintro rfl
      omega
    rw [escapeUnits, if_pos (by rw [hhigh, hlow]; rfl), List.cons_append,
      readPieces_plain (hne (by decide)) (hne (by decide)) (by omega), h.read]
    rfl
  text := by
    rw [unitsText?, List.map_cons, List.map_cons, textOf_pair hhigh hlow, textOf, h.text]
    rfl
  front := nofun

/-- A half that stands alone is read as it was written. -/
theorem Spells.half (h : Spells rest pieces) (hsingle : Single u rest)
    (hhalf : isHighUnit u.toNat = true ∨ isLowUnit u.toNat = true) :
    Spells (u :: rest) (.unit u.toNat :: pieces) where
  read after := by
    rw [escapeUnits_single hsingle, escapeUnit, if_pos (by simpa using hhalf), List.append_assoc,
      readPieces_unitEscape, h.read]
    rfl
  text := by
    -- What is read behind a first half is no second half, since none is written there.
    have hnext : isHighUnit u.toNat = true →
        ∀ m, pieces.head? = some (.unit m) → isLowUnit m = false := by
      intro hhigh m hm
      by_contra hne
      obtain ⟨w, hw, hlow⟩ := h.front m hm (by simpa using hne)
      rw [hsingle hhigh w hw] at hlow
      exact nomatch hlow
    rw [unitsText?, List.map_cons, textOf_lone hhalf hnext, textOf_lone hhalf hsingle.units]
  front := by
    rintro m ⟨⟩ hm
    exact ⟨u, rfl, hm⟩

theorem Spells.plain (h : Spells rest pieces) (hsingle : Single u rest)
    (hhigh : isHighUnit u.toNat = false) (hlow : isLowUnit u.toNat = false) :
    ∃ piece, Spells (u :: rest) (piece :: pieces) := by
  obtain ⟨piece, hmeans, hescape⟩ := readPieces_escapeChar (Char.ofNat u.toNat)
  refine ⟨piece, fun after ↦ ?_, ?_, ?_⟩
  · rw [escapeUnits_single hsingle, escapeUnit, if_neg (by simp [hhigh, hlow]), List.append_assoc,
      hescape, h.read]
    rfl
  · rw [unitsText?, List.map_cons, textOf_plain hhigh hlow, hmeans, h.text, unitsText?]
  · intro m hm hmlow
    obtain rfl := Option.some.inj hm
    have hnone := (hmeans []).symm.trans (textOf_low hmlow)
    exact nomatch hnone

/-- The inside of a string by its units is read to its closing quote, for the text of the units. -/
theorem exists_spells (us : List UInt16) : ∃ pieces, Spells us pieces := by
  induction us using units_cases with
  | nil =>
    refine ⟨[], fun rest ↦ ?_, rfl, nofun⟩
    rw [escapeUnits, List.nil_append, readPieces]
  | pair u w rest hhigh hlow ih =>
    obtain ⟨pieces, h⟩ := ih
    exact ⟨_, h.pair hhigh hlow⟩
  | single u rest hsingle ih =>
    obtain ⟨pieces, h⟩ := ih
    by_cases hhalf : isHighUnit u.toNat = true ∨ isLowUnit u.toNat = true
    · exact ⟨_, h.half hsingle hhalf⟩
    · simp only [not_or, Bool.not_eq_true] at hhalf
      obtain ⟨piece, hplain⟩ := h.plain hsingle hhalf.1 hhalf.2
      exact ⟨_, hplain⟩

/-- A string by its units is one token. -/
theorem tokens_units (us : List UInt16) (rest : List Char) :
    tokens ('"' :: (escapeUnits us ++ '"' :: rest)) =
      (tokens rest).map (.string ((unitsText? us).map String.ofList) :: ·) := by
  obtain ⟨pieces, h⟩ := exists_spells us
  refine tokens_of_readToken (by decide) ?_
  simp [readToken, h.read, h.text]

/-- A lone first half is written by its number, and a string that holds it has no text. -/
example : escapeUnits [0xD83D, 0x22] = "\\ud83d\\\"".toList ∧ unitsText? [0xD83D, 0x22] = none := by
  decide

end Reading

end FenceLint.Json
