/-!
Decimal digits of natural numbers. `digits` writes a number without leading zeros, `value` reads
digits back, and `value_digits` says that reading undoes writing.
-/

set_option autoImplicit false

namespace FenceLint.Decimal

/-- The decimal digits of a number, the most significant first; zero has the one digit zero. -/
def digits (n : Nat) : List (Fin 10) :=
  if n < 10 then [Fin.ofNat 10 n] else digits (n / 10) ++ [Fin.ofNat 10 n]
termination_by n

/-- The digit zero. -/
def zeroDigit : Fin 10 := ⟨0, by decide⟩

/-- One more than the largest number of sixty-four bits. -/
def wordBound : Nat := 18446744073709551616

/-- The number that a list of digits stands for. -/
def value (ds : List (Fin 10)) : Nat :=
  ds.foldl (fun n d ↦ 10 * n + d.val) 0

/-- The character of a digit. -/
def digitChar (d : Fin 10) : Char := Char.ofNat (48 + d.val)

/-- The digit of a character. -/
def digit? (c : Char) : Option (Fin 10) :=
  if c.isDigit then some (Fin.ofNat 10 (c.toNat - 48)) else none

/-- A number in decimal characters. -/
def chars (n : Nat) : List Char := (digits n).map digitChar

/-- A number in decimal characters, with zeros in front up to a width. -/
def padded (width n : Nat) : List Char :=
  List.replicate (width - (chars n).length) '0' ++ chars n

/-- The digits a text opens with, and what follows them. -/
def readDigits : List Char → List (Fin 10) × List Char
  | [] => ([], [])
  | c :: rest =>
    match digit? c with
    | some d => (d :: (readDigits rest).1, (readDigits rest).2)
    | none => ([], c :: rest)

theorem value_append_singleton (ds : List (Fin 10)) (d : Fin 10) :
    value (ds ++ [d]) = 10 * value ds + d.val := by
  simp [value, List.foldl_append]

theorem value_digits (n : Nat) : value (digits n) = n := by
  induction n using Nat.strongRecOn with
  | ind n ih =>
    unfold digits
    split
    · rename_i h
      simp [value, Nat.mod_eq_of_lt h]
    · rename_i h
      rw [value_append_singleton, ih (n / 10) (by omega)]
      simp only [Fin.ofNat]
      omega

theorem digits_ne_nil (n : Nat) : digits n ≠ [] := by
  unfold digits
  split <;> simp

theorem digit?_digitChar (d : Fin 10) : digit? (digitChar d) = some d := by
  revert d
  decide

/-- Only a number below ten is written with a zero in front. -/
theorem digits_tail_eq_nil {n : Nat} {d : Fin 10} {ds : List (Fin 10)} (h : digits n = d :: ds)
    (hzero : d.val = 0) : ds = [] := by
  induction n using Nat.strongRecOn generalizing d ds with
  | ind n ih =>
    by_cases hlt : n < 10
    · rw [digits, if_pos hlt] at h
      exact (List.cons.inj h).2.symm
    · rw [digits, if_neg hlt] at h
      cases hq : digits (n / 10) with
      | nil => exact absurd hq (digits_ne_nil _)
      | cons e es =>
        rw [hq, List.cons_append] at h
        obtain ⟨rfl, -⟩ := List.cons.inj h
        obtain rfl := ih (n / 10) (by omega) hq hzero
        have hvalue := value_digits (n / 10)
        simp only [hq, value, List.foldl_cons, List.foldl_nil] at hvalue
        omega

/-- Digits are read up to the first character that is none. -/
theorem readDigits_map_digitChar (ds : List (Fin 10)) {rest : List Char}
    (h : ∀ c ∈ rest.head?, digit? c = none) :
    readDigits (ds.map digitChar ++ rest) = (ds, rest) := by
  induction ds with
  | nil =>
    cases rest with
    | nil => rfl
    | cons c rest => simp [readDigits, h c (by simp)]
  | cons d ds ih => simp [readDigits, digit?_digitChar, ih]

theorem length_readDigits (cs : List Char) : (readDigits cs).2.length ≤ cs.length := by
  induction cs with
  | nil => simp [readDigits]
  | cons c rest ih =>
    unfold readDigits
    split
    · exact Nat.le_succ_of_le ih
    · exact Nat.le_refl _

end FenceLint.Decimal
