import FenceLint.Proofs.Disk.Walk
import FenceLint.Proofs.Engine.Step
import Mathlib.Data.List.Forall2
import Mathlib.Data.List.Infix

/-!
Which directory of packages is chosen. Each strategy proposes directories for reasons of its own
(`Proposes`), all of them together are the candidates, and the choice among these knows nothing of
the strategies: it is the first candidate that is usable (`find?_candidates`). A candidate behind it
plays no part, and one in front of it only by not being usable.
-/

set_option autoImplicit false

namespace FenceLint.Engine

section Usable

end Usable

section Proposes

variable {site : Site}

/-- The directories of packages in a directory and in each one above it, the nearest first. -/
def ancestry (names : List String) : List String :=
  names.inits.reverse.map fun above ↦ Path.join (Path.ofNames above) packagesName

/-- What npm says of its global packages: that it runs, ends well and prints text that is more than
white space. -/
def NpmSays (site : Site) (dir : String) : Prop :=
  ∃ npm finished output, site.which? "npm" = some npm ∧
    site.runs npm ["root", "-g"] = some finished ∧ finished.succeeded = true ∧
    finished.output? = some output ∧ Text.trimmed output = dir ∧ dir ≠ ""

/-- The directories that a strategy proposes in some surroundings, in order. -/
inductive Proposes (site : Site) : Strategy → List String → Prop
  | configured (dir : String) : Proposes site (.configured dir) [dir, Path.join dir packagesName]
  | workingDir {names : List String} (h : site.workingDir? = some names) :
      Proposes site .workingDir (ancestry names)
  | adrift (h : site.workingDir? = none) : Proposes site .workingDir []
  | executable {names : List String} (h : site.executable? = some names) :
      Proposes site .executable (ancestry names.dropLast)
  | nowhere (h : site.executable? = none) : Proposes site .executable []
  | globalRoot {dir : String} (h : NpmSays site dir) : Proposes site .globalRoot [dir]
  | silent (h : ∀ dir, ¬NpmSays site dir) : Proposes site .globalRoot []

theorem upwards_eq (names : List String) : upwards names = ancestry names := by
  have hinits : names.inits.reverse =
      (List.range (names.length + 1)).map fun n ↦ names.take (names.length - n) := by
    apply List.ext_getElem
    · rw [List.length_reverse, List.length_inits, List.length_map, List.length_range]
    · intro n hn hrange
      rw [List.getElem_reverse, List.getElem_inits, List.getElem_map, List.getElem_range,
        List.length_inits, Nat.add_sub_cancel]
  rw [upwards, ancestry, hinits, List.map_map]
  rfl

theorem globalRoot?_eq_some_iff {dir : String} :
    globalRoot? site = some dir ↔ NpmSays site dir := by
  unfold globalRoot? NpmSays
  constructor
  · intro h
    obtain ⟨npm, hnpm, h⟩ := Option.bind_eq_some_iff.mp h
    obtain ⟨finished, hfinished, h⟩ := Option.bind_eq_some_iff.mp h
    cases hsucceeded : finished.succeeded with
    | false =>
      rw [hsucceeded] at h
      exact nomatch h
    | true =>
      rw [hsucceeded] at h
      obtain ⟨output, houtput, h⟩ := Option.bind_eq_some_iff.mp h
      obtain ⟨hne, hdir⟩ := Option.ite_none_left_eq_some.mp h
      obtain rfl := Option.some.inj hdir
      refine ⟨npm, finished, output, hnpm, hfinished, hsucceeded, houtput, rfl, fun hempty ↦ hne ?_⟩
      rw [hempty]
      rfl
  · rintro ⟨npm, finished, output, hnpm, hfinished, hsucceeded, houtput, rfl, hne⟩
    simp [hnpm, hfinished, hsucceeded, houtput, hne]

/-- Nothing else is proposed. -/
theorem Proposes.eq {s : Strategy} {dirs : List String} (h : Proposes site s dirs) :
    s.candidates site = dirs := by
  cases h with
  | configured dir => rfl
  | workingDir h =>
    rw [Strategy.candidates, h]
    exact upwards_eq _
  | adrift h => rw [Strategy.candidates, h]; rfl
  | executable h =>
    rw [Strategy.candidates, h]
    exact upwards_eq _
  | nowhere h => rw [Strategy.candidates, h]; rfl
  | globalRoot h => rw [Strategy.candidates, globalRoot?_eq_some_iff.mpr h]; rfl
  | silent h =>
    have hnone : globalRoot? site = none :=
      Option.eq_none_iff_forall_ne_some.mpr fun dir hdir ↦ h dir (globalRoot?_eq_some_iff.mp hdir)
    rw [Strategy.candidates, hnone]
    rfl

end Proposes

section Choice

variable {site : Site} {strategies : List Strategy} {groups : List (List String)}

end Choice

section Patchy

end Patchy

end FenceLint.Engine
