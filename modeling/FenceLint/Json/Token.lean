import FenceLint.Json.Value

/-!
The tokens of JSON text. White space between tokens is space, tab, line feed and carriage return
and nothing else. Inside a string a control character is an error and an escape is read even where
it stands for no character: a string with half a surrogate pair is a token whose text is missing.
-/

set_option autoImplicit false

namespace FenceLint.Json

/-- A token of JSON text. -/
inductive Token
  | null
  | bool (b : Bool)
  | number (n : Number)
  | string (text? : Option String)
  | openArray | closeArray | openObject | closeObject | comma | colon
  deriving DecidableEq, Repr

/-- The value of a hexadecimal digit. -/
def hexDigit? (c : Char) : Option Nat :=
  let n := c.toNat
  if c.isDigit then some (n - 48)
  else if 97 ≤ n && n ≤ 102 then some (n - 87)
  else if 65 ≤ n && n ≤ 70 then some (n - 55)
  else none

/-- The value of four hexadecimal digits. -/
def hexQuad? (a b c d : Char) : Option Nat := do
  let w ← hexDigit? a
  let x ← hexDigit? b
  let y ← hexDigit? c
  let z ← hexDigit? d
  pure (((w * 16 + x) * 16 + y) * 16 + z)

/-- The character that a one-letter escape stands for. -/
def simpleEscape? (c : Char) : Option Char :=
  if c = '"' || c = '\\' || c = '/' then some c
  else if c = 'b' then some '\x08'
  else if c = 'f' then some '\x0c'
  else if c = 'n' then some '\n'
  else if c = 'r' then some '\r'
  else if c = 't' then some '\t'
  else none

/-- A piece of a string: a character, or one sixteen-bit unit given by its number. -/
inductive Piece
  | char (c : Char)
  | unit (n : Nat)
  deriving DecidableEq, Repr

/-- The pieces of a string up to its closing quote, and what follows the quote. -/
def readPieces : List Char → Option (List Piece × List Char)
  | [] => none
  | '"' :: rest => some ([], rest)
  | '\\' :: 'u' :: a :: b :: c :: d :: rest => do
    let n ← hexQuad? a b c d
    let (pieces, after) ← readPieces rest
    pure (.unit n :: pieces, after)
  | '\\' :: c :: rest => do
    let e ← simpleEscape? c
    let (pieces, after) ← readPieces rest
    pure (.char e :: pieces, after)
  | c :: rest => do
    if c.toNat < 32 || c = '\\' then none
    else
      let (pieces, after) ← readPieces rest
      pure (.char c :: pieces, after)

/-- First halves of surrogate pairs. -/
def isHighUnit (n : Nat) : Bool := 0xD800 ≤ n && n ≤ 0xDBFF

/-- Second halves of surrogate pairs. -/
def isLowUnit (n : Nat) : Bool := 0xDC00 ≤ n && n ≤ 0xDFFF

/-- The text that pieces stand for. Units join in pairs, and a half without its other half leaves no
text. -/
def textOf : List Piece → Option (List Char)
  | [] => some []
  | .char c :: rest => (textOf rest).map (c :: ·)
  | .unit n :: rest =>
    if isHighUnit n then
      match rest with
      | .unit m :: rest' =>
        if isLowUnit m then
          (textOf rest').map (Char.ofNat (0x10000 + (n - 0xD800) * 0x400 + (m - 0xDC00)) :: ·)
        else none
      | _ => none
    else if isLowUnit n then none
    else (textOf rest).map (Char.ofNat n :: ·)

/-- The sign an exponent opens with, `true` for a minus. -/
def readSign : List Char → Option Bool × List Char
  | '-' :: rest => (some true, rest)
  | '+' :: rest => (some false, rest)
  | rest => (none, rest)

/-- An exponent, if the text opens with one; `none` when it opens with a broken one. -/
def readExponent : List Char → Option (Option Exponent × List Char)
  | [] => some (none, [])
  | c :: rest =>
    if c = 'e' || c = 'E' then
      match Decimal.readDigits (readSign rest).2 with
      | ([], _) => none
      | (d :: ds, after) => some (some ⟨decide (c = 'E'), (readSign rest).1, d, ds⟩, after)
    else some (none, c :: rest)

/-- A fraction, if the text opens with one; `none` when it opens with a broken one. -/
def readFraction : List Char → Option (List (Fin 10) × List Char)
  | '.' :: rest =>
    match Decimal.readDigits rest with
    | ([], _) => none
    | (ds, after) => some (ds, after)
  | rest => some ([], rest)

/-- A number without its sign. A zero in front of other digits is not allowed. -/
def readMagnitude (negative : Bool) (cs : List Char) : Option (Number × List Char) :=
  match Decimal.readDigits cs with
  | ([], _) => none
  | (d :: ds, after) =>
    if d.val = 0 && !ds.isEmpty then none
    else do
      let (fraction, after) ← readFraction after
      let (exponent, after) ← readExponent after
      pure (⟨negative, Decimal.value (d :: ds), fraction, exponent⟩, after)

/-- White space between tokens. -/
def isSpace (c : Char) : Bool := c = ' ' || c = '\t' || c = '\n' || c = '\r'

/-- The token a text opens with, and what follows it. -/
def readToken : List Char → Option (Token × List Char)
  | '[' :: rest => some (.openArray, rest)
  | ']' :: rest => some (.closeArray, rest)
  | '{' :: rest => some (.openObject, rest)
  | '}' :: rest => some (.closeObject, rest)
  | ',' :: rest => some (.comma, rest)
  | ':' :: rest => some (.colon, rest)
  | '"' :: rest =>
    (readPieces rest).map fun r ↦ (.string ((textOf r.1).map String.ofList), r.2)
  | 'n' :: 'u' :: 'l' :: 'l' :: rest => some (.null, rest)
  | 't' :: 'r' :: 'u' :: 'e' :: rest => some (.bool true, rest)
  | 'f' :: 'a' :: 'l' :: 's' :: 'e' :: rest => some (.bool false, rest)
  | '-' :: rest => (readMagnitude true rest).map fun r ↦ (.number r.1, r.2)
  | cs => (readMagnitude false cs).map fun r ↦ (.number r.1, r.2)

theorem length_readPieces {cs : List Char} {pieces : List Piece} {after : List Char}
    (h : readPieces cs = some (pieces, after)) : after.length < cs.length := by
  fun_induction readPieces cs generalizing pieces after with
  | case1 => simp at h
  | case2 rest => simp_all
  | case3 a b c d rest ih =>
    simp only [Option.bind_eq_bind, Option.bind_eq_some_iff, Option.pure_def] at h
    obtain ⟨n, -, ⟨more, left⟩, hr, h⟩ := h
    have := ih hr
    simp_all
    omega
  | case4 c rest hne ih =>
    simp only [Option.bind_eq_bind, Option.bind_eq_some_iff, Option.pure_def] at h
    obtain ⟨e, -, ⟨more, left⟩, hr, h⟩ := h
    have := ih hr
    simp_all
    omega
  | case5 c rest h1 h2 h3 hc => simp at h
  | case6 c rest h1 h2 h3 hc ih =>
    simp only [Option.bind_eq_bind, Option.bind_eq_some_iff, Option.pure_def] at h
    obtain ⟨⟨more, left⟩, hr, h⟩ := h
    have := ih hr
    simp_all
    omega

theorem length_readSign (cs : List Char) : (readSign cs).2.length ≤ cs.length := by
  unfold readSign
  split <;> simp

theorem length_readExponent {cs after : List Char} {e : Option Exponent}
    (h : readExponent cs = some (e, after)) : after.length ≤ cs.length := by
  cases cs with
  | nil => simp_all [readExponent]
  | cons c rest =>
    have hs := length_readSign rest
    have hd := Decimal.length_readDigits (readSign rest).2
    simp only [readExponent] at h
    split at h
    · split at h
      · simp at h
      · simp_all
        omega
    · simp_all

theorem length_readFraction {cs after : List Char} {ds : List (Fin 10)}
    (h : readFraction cs = some (ds, after)) : after.length ≤ cs.length := by
  unfold readFraction at h
  split at h
  · rename_i rest
    have hd := Decimal.length_readDigits rest
    split at h
    · simp at h
    · simp_all
      omega
  · simp_all

theorem length_readMagnitude {negative : Bool} {cs after : List Char} {n : Number}
    (h : readMagnitude negative cs = some (n, after)) : after.length < cs.length := by
  unfold readMagnitude at h
  split at h
  · simp at h
  · rename_i d ds rest hd
    have hlt : rest.length < cs.length := by
      cases cs with
      | nil => simp [Decimal.readDigits] at hd
      | cons c cs =>
        have := Decimal.length_readDigits cs
        unfold Decimal.readDigits at hd
        split at hd
        · obtain ⟨-, rfl⟩ := Prod.mk.inj hd
          simp only [List.length_cons]
          omega
        · simp at hd
    split at h
    · simp at h
    · simp only [Option.bind_eq_bind, Option.bind_eq_some_iff, Option.pure_def] at h
      obtain ⟨⟨f, s⟩, hf, ⟨x, u⟩, hx, h⟩ := h
      have := length_readFraction hf
      have := length_readExponent hx
      simp_all
      omega

/-- A token takes at least one character. -/
theorem length_readToken {cs after : List Char} {t : Token}
    (h : readToken cs = some (t, after)) : after.length < cs.length := by
  unfold readToken at h
  split at h
  case h_7 rest =>
    obtain ⟨⟨pieces, left⟩, hr, h⟩ := Option.map_eq_some_iff.1 h
    have := length_readPieces hr
    simp_all
    omega
  case h_11 rest =>
    obtain ⟨⟨n, left⟩, hr, h⟩ := Option.map_eq_some_iff.1 h
    have := length_readMagnitude hr
    simp_all
    omega
  case h_12 rest _ _ _ _ _ _ _ _ _ _ _ =>
    obtain ⟨⟨n, left⟩, hr, h⟩ := Option.map_eq_some_iff.1 h
    have := length_readMagnitude hr
    simp_all
  all_goals
    simp only [Option.some.injEq, Prod.mk.injEq] at h
    simp [← h.2]
    try omega

/-- The tokens of a text, if it consists of tokens and white space. -/
def tokens (cs : List Char) : Option (List Token) :=
  match h : cs.dropWhile isSpace with
  | [] => some []
  | c :: rest =>
    match ht : readToken (c :: rest) with
    | none => none
    | some (t, after) =>
      have : after.length < cs.length := by
        have h1 := length_readToken ht
        have h2 := (List.dropWhile_suffix (l := cs) isSpace).length_le
        rw [h] at h2
        omega
      (tokens after).map (t :: ·)
termination_by cs.length

end FenceLint.Json
