import FenceLint.CommandLine.Run
import FenceLint.Proofs.Checker.Coverage
import FenceLint.Proofs.Checker.Files
import FenceLint.Proofs.Targets.Expansion

/-!
What checking the targets of a run comes to, by what their documents come to. One document that was
asked for by name has its report printed, any other targets the report on all of them; a fatal error,
or one that leaves nothing to print, is the answer itself.
-/

set_option autoImplicit false

namespace FenceLint

namespace Targets

variable {disk : Disk} {inputs : List String} {dir? : Option String} {deep : Bool} {t : Targets}

/-- One path that was asked for by name is one document. -/
theorem documents_of_single (h : resolve disk inputs dir? deep = .ok t)
    (hsingle : t.single = true) : ∃ document, t.documents = [document] := by
  obtain ⟨groups, more, -, ht⟩ := resolve_eq_ok_iff.mp h
  rw [ht] at hsingle
  obtain ⟨input, hinputs, hplain, hdir⟩ := byName_iff.mp hsingle
  exact ⟨input, documents_of_byName h hinputs hplain hdir⟩

end Targets

namespace CommandLine

variable (site : Site) (o : Options) (t : Targets)

/-- What a check answers, by the attempts on its documents. -/
inductive Answer (tried : List Attempt) : Except Error (Outcome × String) → Prop
  | single (report : Report) (hsingle : t.single = true) (hfiles : reportsOf tried = [report])
    (hfailures : failuresOf tried = []) :
    Answer tried (.ok (report.outcome, o.reportText site true report))
  | several (hsingle : t.single = false) (hfatal : ∀ a ∈ tried, a.isFatal = false) :
    Answer tried (.ok ((MultiReport.ofReports (reportsOf tried) (failuresOf tried)).outcome,
      o.multiText site false (.ofReports (reportsOf tried) (failuresOf tried))))
  | failed (e : Error)
    (h : (∃ a ∈ tried, a.isFatal = true) ∨ (t.single = true ∧ failuresOf tried ≠ [])) :
    Answer tried (.error e)

/-- Checks one document and reports on it alone. -/
def checkOne (document : String) :
    Act (Scene Engine.Machine Engine) (Except Error (Outcome × String)) :=
  Except.map (fun report ↦ (report.outcome, o.reportText site true report)) <$>
    Scene.checkDocument Engine.backend site.disk.readText document

/-- Checks documents and reports on all of them together. -/
def checkAll (documents : List String) :
    Act (Scene Engine.Machine Engine) (Except Error (Outcome × String)) :=
  Except.map (fun multi ↦ (multi.outcome, o.multiText site false multi)) <$>
    Scene.checkDocuments Engine.backend site.disk.readText documents

/-- One document that was asked for by name is checked on its own. -/
theorem check_eq_checkOne {document : String} (hsingle : t.single = true)
    (hdocuments : t.documents = [document]) : check site o t = checkOne site o document := by
  unfold check
  rw [hsingle, hdocuments]
  simp only [checkOne, map_eq_pure_bind]
  congr 1
  funext result
  cases result with
  | error e => rfl
  | ok report => rfl

/-- Any other targets are checked as a list. -/
theorem check_eq_checkAll (hsingle : t.single = false) :
    check site o t = checkAll site o t.documents := by
  unfold check
  rw [hsingle]
  simp only [checkAll, map_eq_pure_bind]
  congr 1
  funext result
  cases result with
  | error e => rfl
  | ok multi => rfl

variable (s : Scene Engine.Machine Engine)

theorem run_check_single {document : String} (hsingle : t.single = true)
    (hdocuments : t.documents = [document]) :
    let r := (Scene.checkDocument Engine.backend site.disk.readText document).run s
    ((check site o t).run s).value =
        r.value.map (fun report ↦ (report.outcome, o.reportText site true report)) ∧
      ((check site o t).run s).state = r.state := by
  intro r
  rw [check_eq_checkOne site o t hsingle hdocuments, checkOne, Act.run_map]
  exact ⟨rfl, rfl⟩

theorem run_check_several (hsingle : t.single = false) :
    let r := (Scene.checkDocuments Engine.backend site.disk.readText t.documents).run s
    ((check site o t).run s).value =
        r.value.map (fun multi ↦ (multi.outcome, o.multiText site false multi)) ∧
      ((check site o t).run s).state = r.state := by
  intro r
  rw [check_eq_checkAll site o t hsingle, checkAll, Act.run_map]
  exact ⟨rfl, rfl⟩

/-- A check answers by the attempts on its documents. -/
theorem check_answer (hnamed : t.single = true → ∃ document, t.documents = [document]) :
    Answer site o t (Scene.attempts Engine.backend site.disk.readText s t.documents)
      ((check site o t).run s).value := by
  cases hsingle : t.single with
  | true =>
    obtain ⟨document, hdocuments⟩ := hnamed hsingle
    rw [(run_check_single site o t s hsingle hdocuments).1, hdocuments]
    simp only [Scene.attempts]
    cases ((Scene.checkDocument Engine.backend site.disk.readText document).run s).value with
    | error e => exact .failed e (.inr ⟨hsingle, List.cons_ne_nil _ _⟩)
    | ok report => exact .single report hsingle rfl rfl
  | false =>
    rw [(run_check_several site o t s hsingle).1]
    by_cases hfatal : ∃ a ∈ Scene.attempts Engine.backend site.disk.readText s t.documents,
      a.isFatal = true
    · obtain ⟨before, path, rest, e, hdocuments, hbefore, hlast, he⟩ :=
        Scene.exists_first_fatal Engine.backend site.disk.readText hfatal
      rw [hdocuments, (Scene.run_checkDocuments_fatal Engine.backend site.disk.readText hbefore he
        hlast rest).1, ← hdocuments]
      exact .failed e (.inl hfatal)
    · have hnone : ∀ a ∈ Scene.attempts Engine.backend site.disk.readText s t.documents,
          a.isFatal = false := by
        intro a ha
        exact Bool.eq_false_iff.mpr fun hisFatal ↦ hfatal ⟨a, ha, hisFatal⟩
      rw [(Scene.run_checkDocuments Engine.backend site.disk.readText hnone).1]
      exact .several hsingle hnone

/-- A check visits the documents in order, whatever its targets. -/
theorem check_follow (hnamed : t.single = true → ∃ document, t.documents = [document]) :
    Follow Engine.backend s (Task.eachVisit Engine.backend site.disk.readText t.documents s)
      ((check site o t).run s).state := by
  have hfollow : Follow Engine.backend s _ _ :=
    follow_eachVisit site.disk.readText t.documents s [] []
  cases hsingle : t.single with
  | true =>
    obtain ⟨document, hdocuments⟩ := hnamed hsingle
    rw [(run_check_single site o t s hsingle hdocuments).2, hdocuments]
    rwa [hdocuments, Scene.checkEach_singleton] at hfollow
  | false =>
    rw [(run_check_several site o t s hsingle).2, Scene.checkDocuments, Act.run_within]
    exact hfollow

end CommandLine

end FenceLint
