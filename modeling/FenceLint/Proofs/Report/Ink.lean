import FenceLint.Proofs.Json.Layout
import FenceLint.Report.Printer
import Mathlib.Data.List.Basic

/-!
Styled text and the same text without its styles. `bleach` deletes every style sequence of a text:
an escape, a bracket, parameters and the letter `m`. A text bleaches to another when that holds
whatever follows it, so that texts bleach piece by piece (`Bleaches.append`). What is painted
bleaches to itself as it was before, in any ink, provided that it holds no escape of its own
(`bleaches_paint`), and by that each line of a block, a document and the totals bleaches to the
plain one.
-/

set_option autoImplicit false

namespace FenceLint

namespace Ink

/-- The character that opens a control sequence. -/
def escape : Char := '\x1b'

/-- The characters that may stand between the bracket and the letter of a style sequence. -/
def isParameter (c : Char) : Bool := c.isDigit || c = ';' || c = ':'

/-- What follows the style sequence that a text opens with. -/
def behindSequence? : List Char → Option (List Char)
  | '\x1b' :: '[' :: rest =>
    match rest.dropWhile isParameter with
    | 'm' :: after => some after
    | _ => none
  | _ => none

theorem length_behindSequence? {cs after : List Char} (h : behindSequence? cs = some after) :
    after.length < cs.length := by
  unfold behindSequence? at h
  split at h
  · rename_i rest
    have hsuffix := (List.dropWhile_suffix (l := rest) isParameter).length_le
    split at h
    · rename_i behind hdrop
      obtain rfl := Option.some.inj h
      rw [hdrop, List.length_cons] at hsuffix
      simp only [List.length_cons]
      omega
    · exact absurd h (by simp)
  · exact absurd h (by simp)

/-- A text without its style sequences. -/
def bleach (cs : List Char) : List Char :=
  match h : behindSequence? cs with
  | some after =>
    have : after.length < cs.length := length_behindSequence? h
    bleach after
  | none =>
    match cs with
    | [] => []
    | c :: rest => c :: bleach rest
termination_by cs.length

variable {rest : List Char}

theorem bleach_nil : bleach [] = [] := by
  rw [bleach]
  rfl

theorem bleach_of_behind {cs after : List Char} (h : behindSequence? cs = some after) :
    bleach cs = bleach after := by
  rw [bleach]
  split
  · rename_i behind hbehind
    exact congrArg bleach (Option.some.inj (hbehind.symm.trans h))
  · rename_i hnone
    exact absurd (hnone.symm.trans h) (by simp)

theorem behindSequence?_cons_of_ne {c : Char} (h : c ≠ escape) :
    behindSequence? (c :: rest) = none := by
  unfold behindSequence?
  split
  · rename_i heq
    exact absurd (List.cons.inj heq).1 h
  · rfl

theorem bleach_cons_of_ne {c : Char} (h : c ≠ escape) : bleach (c :: rest) = c :: bleach rest := by
  rw [bleach]
  split
  · rename_i hbehind
    rw [behindSequence?_cons_of_ne h] at hbehind
    exact absurd hbehind (by simp)
  · rfl

/-- A style sequence goes, whatever its parameters. -/
theorem bleach_sequence {parameters : String} (h : parameters.toList.all isParameter = true) :
    bleach ((sequence parameters).toList ++ rest) = bleach rest := by
  apply bleach_of_behind
  have hchars : (sequence parameters).toList ++ rest =
      '\x1b' :: '[' :: (parameters.toList ++ 'm' :: rest) := by
    simp [sequence]
  have hletter : ¬isParameter 'm' = true := by decide
  rw [hchars, behindSequence?,
    List.dropWhile_append_of_pos fun c hc ↦ List.all_eq_true.mp h c hc,
    List.dropWhile_cons_of_neg hletter]
  rfl

/-- Whatever follows, the first text becomes the second one when styles are deleted. -/
def Bleaches (styled plain : String) : Prop :=
  ∀ rest, bleach (styled.toList ++ rest) = plain.toList ++ bleach rest

variable {s t s' t' : String}

theorem Bleaches.append (h : Bleaches s t) (h' : Bleaches s' t') :
    Bleaches (s ++ s') (t ++ t') := by
  intro rest
  rw [String.toList_append, String.toList_append, List.append_assoc, h, h', List.append_assoc]

theorem Bleaches.eq (h : Bleaches s t) : bleach s.toList = t.toList := by
  have hnil := h []
  rwa [List.append_nil, bleach_nil, List.append_nil] at hnil

/-- A text without an escape stays as it is. -/
theorem bleaches_self (h : escape ∉ s.toList) : Bleaches s s := by
  intro rest
  generalize s.toList = cs at h
  induction cs with
  | nil => rfl
  | cons c cs ih =>
    have hc : c ≠ escape := fun hc ↦ h (hc ▸ List.mem_cons_self)
    rw [List.cons_append, bleach_cons_of_ne hc, ih fun hmem ↦ h (List.mem_cons_of_mem c hmem),
      List.cons_append]

theorem bleaches_sequence {parameters : String} (h : parameters.toList.all isParameter = true) :
    Bleaches (sequence parameters) "" := fun _ ↦ bleach_sequence h

/-- Any ink but the plain one puts one style sequence before a text and one after it. -/
theorem around_of_ne_plain {ink : Ink} (h : ink ≠ .plain) (style : Style) :
    ∃ before behind, ink.around style = (sequence before, sequence behind) ∧
      before.toList.all isParameter = true ∧ behind.toList.all isParameter = true := by
  cases ink with
  | plain => exact absurd rfl h
  | vivid => cases style <;> exact ⟨_, _, rfl, by decide, by decide⟩
  | pale => cases style <;> exact ⟨_, _, rfl, by decide, by decide⟩

/-- What an ink puts around a text goes. -/
theorem bleaches_around (ink : Ink) (style : Style) :
    Bleaches (ink.around style).1 "" ∧ Bleaches (ink.around style).2 "" := by
  by_cases h : ink = .plain
  · have hempty : Bleaches "" "" := bleaches_self (by decide)
    rw [h]
    exact ⟨hempty, hempty⟩
  · obtain ⟨before, behind, haround, hbefore, hbehind⟩ := around_of_ne_plain h style
    rw [haround]
    exact ⟨bleaches_sequence hbefore, bleaches_sequence hbehind⟩

/-- Painted text bleaches to what plain ink writes. -/
theorem bleaches_paint (ink : Ink) (style : Style) (h : escape ∉ s.toList) :
    Bleaches (ink.paint style s) (plain.paint style s) := by
  obtain ⟨hbefore, hbehind⟩ := ink.bleaches_around style
  exact (hbefore.append (bleaches_self h)).append hbehind

/-- Text without styles is the text itself. -/
theorem paint_plain (style : Style) (s : String) : plain.paint style s = s := by
  cases style <;> simp [paint, around]

/-- No style brings a line feed into a text. -/
theorem feed_not_mem_paint (ink : Ink) (style : Style) (h : '\n' ∉ s.toList) :
    '\n' ∉ (ink.paint style s).toList := by
  have haround : '\n' ∉ (ink.around style).1.toList ∧ '\n' ∉ (ink.around style).2.toList := by
    cases ink <;> cases style <;> decide
  simp only [paint, String.toList_append, List.mem_append, not_or]
  exact ⟨⟨haround.1, h⟩, haround.2⟩

end Ink

end FenceLint
