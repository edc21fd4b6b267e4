/-!
Glob patterns. A question mark stands for one character, a star for any run of them, brackets for
one character of a class, and two stars that fill a component for any number of directories. A
pattern is read as a whole first, so that an error is placed in the whole pattern, and then
component by component.
-/

set_option autoImplicit false

namespace FenceLint.Glob

/-- A range of characters of a class; a single one is a range of its own. -/
structure Range where
  first : Char
  last : Char
  deriving DecidableEq, Repr

/-- What a part of a pattern stands for. -/
inductive Token
  | char (c : Char)
  | anyChar
  | run
  | oneOf (ranges : List Range)
  | noneOf (ranges : List Range)
  /-- Any number of directories. -/
  | deep
  deriving DecidableEq, Repr

/-- What may be wrong with a pattern. -/
inductive Mistake
  | longRun | loneDeep | openClass
  deriving DecidableEq, Repr

/-- A mistake and the number of the character that it is near. -/
structure PatternError where
  position : Nat
  mistake : Mistake
  deriving DecidableEq, Repr

namespace PatternError

/-- A mistake in words. -/
def wording : Mistake → String
  | .longRun => "wildcards are either regular \x60*\x60 or recursive \x60**\x60"
  | .loneDeep => "recursive wildcards must form a single path component"
  | .openClass => "invalid range pattern"

/-- The error in words. -/
def message (e : PatternError) : String :=
  s!"Pattern syntax error near position {e.position}: {wording e.mistake}"

end PatternError

/-- The ranges of a class: a hyphen between two characters makes a range of them. -/
def ranges : List Char → List Range
  | [] => []
  | a :: '-' :: b :: rest => ⟨a, b⟩ :: ranges rest
  | c :: rest => ⟨c, c⟩ :: ranges rest

/-- The inside of brackets, whose first character may be a closing bracket itself, and what follows
them. -/
def classBody? : List Char → Option (List Char × List Char)
  | [] => none
  | c :: rest =>
    match rest.dropWhile (· != ']') with
    | [] => none
    | _close :: after => some (c :: rest.takeWhile (· != ']'), after)

/-- The class after an opening bracket, and what follows it. -/
def class? : List Char → Option (Token × List Char)
  | '!' :: rest => (classBody? rest).map fun r ↦ (.noneOf (ranges r.1), r.2)
  | rest => (classBody? rest).map fun r ↦ (.oneOf (ranges r.1), r.2)

theorem length_classBody? {cs body after : List Char} (h : classBody? cs = some (body, after)) :
    after.length < cs.length := by
  unfold classBody? at h
  split at h
  · simp at h
  · rename_i c rest
    have hs := (List.dropWhile_suffix (l := rest) (· != ']')).length_le
    split at h
    · simp at h
    · rename_i x close after' hd
      rw [hd] at hs
      simp_all
      omega

theorem length_class? {cs after : List Char} {t : Token} (h : class? cs = some (t, after)) :
    after.length < cs.length := by
  unfold class? at h
  split at h
  · obtain ⟨⟨body, left⟩, hb, h⟩ := Option.map_eq_some_iff.1 h
    have := length_classBody? hb
    simp_all
    omega
  · obtain ⟨⟨body, left⟩, hb, h⟩ := Option.map_eq_some_iff.1 h
    have := length_classBody? hb
    simp_all

/-- The tokens of a pattern. `fresh` says that a component starts here, and `position` is the number
of the first character. -/
def tokens (fresh : Bool) (position : Nat) (cs : List Char) :
    Except PatternError (List Token) :=
  match cs with
  | [] => .ok []
  | '?' :: rest => do pure (.anyChar :: (← tokens false (position + 1) rest))
  | '*' :: '*' :: '*' :: _ => .error ⟨position + 2, .longRun⟩
  | '*' :: '*' :: rest =>
    if !fresh then .error ⟨position - 1, .loneDeep⟩
    else match rest with
      | [] => .ok [.deep]
      | '/' :: after => do pure (.deep :: (← tokens true (position + 3) after))
      | _ :: _ => .error ⟨position + 2, .loneDeep⟩
  | '*' :: rest => do pure (.run :: (← tokens false (position + 1) rest))
  | '[' :: rest =>
    match h : class? rest with
    | none => .error ⟨position, .openClass⟩
    | some (t, after) =>
      have : after.length < rest.length := length_class? h
      do pure (t :: (← tokens false (position + 1 + (rest.length - after.length)) after))
  | c :: rest => do pure (.char c :: (← tokens (c = '/') (position + 1) rest))
termination_by cs.length

/-- A component of a pattern. -/
inductive Component
  /-- Any number of directories. -/
  | deep
  /-- A name with only characters that stand for themselves. -/
  | literal (name : String)
  /-- A name that fits these tokens. -/
  | fitting (tokens : List Token)
  deriving DecidableEq, Repr

/-- The text of tokens that stand for themselves. -/
def literal? : List Token → Option (List Char)
  | [] => some []
  | .char c :: rest => (literal? rest).map (c :: ·)
  | _ => none

/-- Tokens as a component. -/
def Component.ofTokens (ts : List Token) : Component :=
  if ts.contains .deep then .deep
  else match literal? ts with
    | some cs => .literal (String.ofList cs)
    | none => .fitting ts

/-- Whether a range holds a character. -/
def Range.holds (r : Range) (c : Char) : Bool := r.first ≤ c && c ≤ r.last

/-- Whether a token that stands for one character stands for this one. -/
def Token.accepts (c : Char) : Token → Bool
  | .char d => c = d
  | .anyChar => true
  | .oneOf rs => rs.any (·.holds c)
  | .noneOf rs => !rs.any (·.holds c)
  | .run => false
  | .deep => false

/-- Whether tokens fit a name from its first character to its last. -/
def fits : List Token → List Char → Bool
  | [], cs => cs.isEmpty
  | .run :: ts, [] => fits ts []
  | .run :: ts, c :: cs => fits ts (c :: cs) || fits (.run :: ts) cs
  | _ :: _, [] => false
  | t :: ts, c :: cs => t.accepts c && fits ts cs
termination_by ts cs => ts.length + cs.length

/-- Whether a component fits a name. -/
def Component.fitsName (name : String) : Component → Bool
  | .deep => true
  | .literal s => s = name
  | .fitting ts => fits ts name.toList

end FenceLint.Glob
