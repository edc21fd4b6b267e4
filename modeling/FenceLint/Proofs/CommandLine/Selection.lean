import FenceLint.Proofs.CommandLine.Answer

/-!
Which documents a run is about, and how they are checked. Targets are found all or none
(`resolve_all_or_none`): every input and the directory add their files, in this order, or the first
of them that fails decides the error. Whether one path was asked for by name is told from the inputs
alone; it then is the one document, so the run reports on it as a single document, and on any other
targets as on several.
-/

set_option autoImplicit false

namespace FenceLint.CommandLine

open Targets

/-- Where it is given what the patterns match, targets are found just when every path exists, every
pattern is well formed and matches a file, the directory has its files and there is an input or a
directory. However that is, they are found just when every input and the directory add their files and
these are some; the documents are then these files in order. Otherwise the first input that is
refused decides the error, after the inputs the directory, and after both that neither is given.
Inputs in two parts expand to what the parts expand to. One path is asked for by name just when it is
the only input, no pattern, and no directory is given; it is then the one document and checked alone,
and any other documents are checked together. -/
theorem resolve_all_or_none (disk : Disk) (inputs : List String) (dir? : Option String)
    (deep : Bool) :
    (∀ given : String → List String,
      (∀ input ∈ inputs, isPattern input = true → ∀ p, Glob.Pattern.parse input = .ok p →
        p.paths disk = .ok (given input)) →
      ((∃ t, resolve disk inputs dir? deep = .ok t) ↔
        (∀ input ∈ inputs, isPattern input = false → disk.exists? input = true) ∧
          (∀ input ∈ inputs, isPattern input = true →
            (∃ p, Glob.Pattern.parse input = .ok p) ∧
              ∃ path ∈ given input, disk.isFile path = true) ∧
          (∀ dir, dir? = some dir → ∃ files, scan disk dir deep = .ok files) ∧
          (inputs ≠ [] ∨ dir? ≠ none))) ∧
    (∀ t, resolve disk inputs dir? deep = .ok t ↔
      ∃ groups more, Selects disk inputs dir? deep groups more ∧
        t.documents = groups.flatten ++ more ∧
        (t.single = true ↔ ∃ input, inputs = [input] ∧ isPattern input = false ∧ dir? = none)) ∧
    (∀ e, resolve disk inputs dir? deep = .error e ↔
      FirstRefused disk inputs e ∨
        (∀ input ∈ inputs, ∃ files, StandsFor disk input files) ∧
          ((∃ dir, dir? = some dir ∧ scan disk dir deep = .error e) ∨
            inputs = [] ∧ dir? = none ∧ e = .usage "no input documents given")) ∧
    (∀ front back, expand disk (front ++ back) =
      (do let files ← expand disk front
          let others ← expand disk back
          pure (files ++ others))) ∧
    ∀ t, resolve disk inputs dir? deep = .ok t →
      t.documents ≠ [] ∧
      (t.single = true → ∃ document, inputs = [document] ∧ t.documents = [document] ∧
        ∀ site o, check site o t = checkOne site o document) ∧
      (t.single = false → ∀ site o, check site o t = checkAll site o t.documents) := by
  refine ⟨fun given hgiven ↦ ?_, fun t ↦ ⟨fun h ↦ ?_, ?_⟩, fun e ↦ resolve_eq_error_iff,
    expand_append_eq, fun t h ↦ ?_⟩
  · have hinputs : (∀ input ∈ inputs, ∃ files, StandsFor disk input files) ↔
        ∀ input ∈ inputs, (isPattern input = false → disk.exists? input = true) ∧
          (isPattern input = true → (∃ p, Glob.Pattern.parse input = .ok p) ∧
            ∃ path ∈ given input, disk.isFile path = true) :=
      forall₂_congr fun input hinput ↦ exists_standsFor_iff (hgiven input hinput)
    rw [exists_resolve_iff, hinputs]
    constructor
    · rintro ⟨hall, hrest⟩
      exact ⟨fun input hinput ↦ (hall input hinput).1, fun input hinput ↦ (hall input hinput).2,
        hrest⟩
    · rintro ⟨hplain, hpattern, hrest⟩
      exact ⟨fun input hinput ↦ ⟨hplain input hinput, hpattern input hinput⟩, hrest⟩
  · obtain ⟨groups, more, hselects, rfl⟩ := resolve_eq_ok_iff.mp h
    exact ⟨groups, more, hselects, rfl, byName_iff⟩
  · rintro ⟨groups, more, hselects, hdocuments, hsingle⟩
    have hnamed : t.single = byName inputs dir? :=
      Bool.eq_iff_iff.mpr (hsingle.trans byName_iff.symm)
    refine resolve_eq_ok_iff.mpr ⟨groups, more, hselects, ?_⟩
    rw [← hdocuments, ← hnamed]
  · obtain ⟨groups, more, hselects, ht⟩ := resolve_eq_ok_iff.mp h
    refine ⟨?_, fun hsingle ↦ ?_, fun hseveral site o ↦ ?_⟩
    · rw [ht]
      exact hselects.nonempty
    · have hnamed : byName inputs dir? = true := (congrArg Targets.single ht).symm.trans hsingle
      obtain ⟨input, hinputs, hplain, hdir⟩ := byName_iff.mp hnamed
      have hdocuments := documents_of_byName h hinputs hplain hdir
      exact ⟨input, hinputs, hdocuments,
        fun site o ↦ check_eq_checkOne site o t hsingle hdocuments⟩
    · exact check_eq_checkAll site o t hseveral

end FenceLint.CommandLine
