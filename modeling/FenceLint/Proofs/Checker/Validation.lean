import FenceLint.Proofs.Checker.Conservation

/-!
Validations in a row. A code is reported by what its parser was asked and said (`Reported`): the
parser gets ready once, and only then it is asked once, about this code and within the limit that is
set. What is reported against a code is the message of the failure, word for word, since no message
is blank (`isAllBlank_message`). Nothing passes from one code to the next but the parser and its
world (`run_validate_between`).
-/

set_option autoImplicit false

namespace FenceLint

theorem Act.length_run_mapM {σ α β : Type} (f : α → Act σ β) (s : σ) (xs : List α) :
    ((xs.mapM f).run s).value.length = xs.length := by
  induction xs generalizing s with
  | nil => rfl
  | cons x rest ih => rw [(Act.run_mapM_cons f s x rest).1, List.length_cons, List.length_cons, ih]

theorem Text.isAllBlank_append {s : String} (h : Text.isAllBlank s = false) (t : String) :
    Text.isAllBlank (s ++ t) = false := by
  unfold Text.isAllBlank at h ⊢
  rw [String.toList_append, List.all_append, h, Bool.false_and]

namespace Failure

/-- Every failure says something. -/
theorem isAllBlank_message (failure : Failure) : Text.isAllBlank failure.message = false := by
  cases failure with
  | rejected text =>
    by_cases hblank : Text.isAllBlank text = true
    · have hmessage : (rejected text).message = Reason.unspecified.text := if_pos hblank
      rw [hmessage]
      exact Reason.unspecified.said
    · have hmessage : (rejected text).message = text := if_neg hblank
      rw [hmessage]
      exact Bool.eq_false_iff.mpr hblank
  | expired limit =>
    exact Text.isAllBlank_append (Text.isAllBlank_append (by decide +kernel) _) _
  | crashed text => exact Text.isAllBlank_append (by decide +kernel) _

/-- A message is reported as it is. -/
theorem ofString_message (failure : Failure) :
    (Reason.ofString failure.message).text = failure.message := by
  unfold Reason.ofString
  rw [dif_pos failure.isAllBlank_message]

theorem error?_failed (failure : Failure) (elapsed : Duration) :
    (Verdict.failed failure.message elapsed).error? = some failure.message :=
  congrArg some failure.ofString_message

/-- The text of a rejection is its message as soon as one character of it is not blank. -/
theorem message_rejected {text : String} {c : Char} (hmem : c ∈ text.toList)
    (hc : Text.isBlank c = false) : (rejected text).message = text := by
  have hsaid : ¬Text.isAllBlank text = true := by
    intro hblank
    exact absurd (List.all_eq_true.mp hblank c hmem) (by simp [hc])
  exact if_neg hsaid

theorem message_rejected_blank {text : String} (h : ∀ c ∈ text.toList, Text.isBlank c = true) :
    (rejected text).message = "syntax error" :=
  if_pos (List.all_eq_true.mpr h)

end Failure

theorem Duration.toMillis_zero : Duration.zero.toMillis = 0 := by decide

/-- The verdict on a code, by what its parser was asked and said. -/
inductive Reported (number : Nat) (limit : Option Duration) (code : String) :
    List Event → Verdict → Prop
  /-- A parser that cannot get ready is not asked, and takes no time. -/
  | unready (failure : Failure) (verdict : Verdict)
      (herror : verdict.error? = some failure.message) (helapsed : verdict.elapsed = 0) :
      Reported number limit code [.prepared number (.error failure)] verdict
  | accepted (elapsed : Duration) (verdict : Verdict) (herror : verdict.error? = none)
      (helapsed : verdict.elapsed = elapsed.toMillis) :
      Reported number limit code
        [.prepared number (.ok ()), .asked number code limit (.ok (), elapsed)] verdict
  | refused (failure : Failure) (elapsed : Duration) (verdict : Verdict)
      (herror : verdict.error? = some failure.message)
      (helapsed : verdict.elapsed = elapsed.toMillis) :
      Reported number limit code
        [.prepared number (.ok ()), .asked number code limit (.error failure, elapsed)] verdict

/-- A trial is reported as its parser has it. -/
theorem Trial.reported {number : Nat} {limit : Option Duration} {code : String} {verdict : Verdict}
    {during : List Event} (h : Trial number limit code verdict during) :
    Reported number limit code during verdict := by
  cases h with
  | unready failure => exact .unready failure _ (failure.error?_failed .zero) Duration.toMillis_zero
  | asked answer =>
    obtain ⟨answer, elapsed⟩ := answer
    cases answer with
    | ok => exact .accepted elapsed _ rfl rfl
    | error failure => exact .refused failure elapsed _ (failure.error?_failed elapsed) rfl

/-- A verdict is valid just when there is nothing to report, and a report is never blank. -/
theorem Verdict.error?_said (verdict : Verdict) :
    (verdict.isValid = true ↔ verdict.error? = none) ∧
      ∀ error, verdict.error? = some error → Text.isAllBlank error = false := by
  unfold isValid error?
  cases verdict.reason? with
  | none => exact ⟨⟨fun _ ↦ rfl, fun _ ↦ rfl⟩, nofun⟩
  | some reason =>
    refine ⟨⟨nofun, nofun⟩, ?_⟩
    intro error herror
    rw [← Option.some.inj herror]
    exact reason.said

namespace Backend

variable {ω π : Type} (b : Backend ω π) (limit : Option Duration)

/-- Watching validations in a row changes nothing of them. -/
theorem mapM_validate_erases (codes : List String) :
    Act.Related (fun (s : (Nat × π) × Watched ω) (t : π × ω) ↦ s.1.2 = t.1 ∧ s.2.world = t.2) Eq
      (codes.mapM (b.watched.validate limit)) (codes.mapM (b.validate limit)) := by
  induction codes with
  | nil => exact .pure rfl
  | cons code rest ih =>
    rw [List.mapM_cons, List.mapM_cons]
    apply Act.Related.bind (backend_validate_erases b limit code)
    rintro verdict _ rfl
    apply Act.Related.bind ih
    rintro verdicts _ rfl
    exact .pure rfl

/-- What a validation leaves: the parser after it has tried to get ready, or after it was asked. -/
theorem run_validate_state (code : String) (s : π × ω) :
    (∃ failure, (b.prepare.run s).value = .error failure ∧
      ((b.validate limit code).run s).state = (b.prepare.run s).state) ∨
    (b.prepare.run s).value = .ok () ∧
      ((b.validate limit code).run s).state =
        ((b.parse code limit).run (b.prepare.run s).state).state := by
  cases hready : (b.prepare.run s).value with
  | error failure => exact Or.inl ⟨failure, rfl, (run_validate_unready b limit code s hready).2⟩
  | ok => exact Or.inr ⟨rfl, (run_validate_ready b limit code s hready).2⟩

/-- A code among others is validated from the state that those before it have left, and those behind
it from the state that it leaves. -/
theorem run_validate_between (front back : List String) (code : String) (s : π × ω) :
    let before := (front.mapM (b.validate limit)).run s
    let here := (b.validate limit code).run before.state
    (((front ++ code :: back).mapM (b.validate limit)).run s).value =
      before.value ++ here.value :: ((back.mapM (b.validate limit)).run here.state).value := by
  intro before here
  rw [(Act.run_mapM_append (b.validate limit) s front (code :: back)).1,
    (Act.run_mapM_cons (b.validate limit) before.state code back).1]

/-- Each code of a row is reported by what its parser was asked and said: once to get ready, and
then once about the code, within the limit. A valid verdict reports nothing, any other one the
message of the failure, which is never blank and never replaced: the text of a rejection unless it
is blank. A failure leaves no trace but in the parser and its world. -/
theorem validations_reported (codes : List String) (p : π) (world : ω) :
    let run := (codes.mapM (b.validate limit)).run (p, world)
    let seen := (codes.mapM (b.watched.validate limit)).run ((0, p), ⟨world, []⟩)
    (seen.value = run.value ∧ seen.state.1.2 = run.state.1 ∧ seen.state.2.world = run.state.2) ∧
    run.value.length = codes.length ∧
    (∃ calls : List (List Event), seen.state.2.events = calls.flatten ∧
      List.Forall₂ (fun tried during ↦ Reported 0 limit tried.1 during tried.2)
        (codes.zip run.value) calls) ∧
    (∀ verdict : Verdict, (verdict.isValid = true ↔ verdict.error? = none) ∧
      ∀ error, verdict.error? = some error → Text.isAllBlank error = false) ∧
    (∀ failure : Failure, Text.isAllBlank failure.message = false ∧
      ∀ elapsed, (Verdict.failed failure.message elapsed).error? = some failure.message) ∧
    (∀ text, (∃ c ∈ text.toList, Text.isBlank c = false) →
      (Failure.rejected text).message = text) ∧
    (∀ text, (∀ c ∈ text.toList, Text.isBlank c = true) →
      (Failure.rejected text).message = "syntax error") ∧
    (∀ passed, (Failure.expired passed).message =
      s!"validation timed out after {passed.millis}ms") ∧
    (∀ text, (Failure.crashed text).message = s!"parser failed: {text}") ∧
    ∀ front code back, codes = front ++ code :: back →
      let before := (front.mapM (b.validate limit)).run (p, world)
      let here := (b.validate limit code).run before.state
      run.value = before.value ++ here.value ::
          ((back.mapM (b.validate limit)).run here.state).value ∧
        ((∃ failure, (b.prepare.run before.state).value = .error failure ∧
            here.state = (b.prepare.run before.state).state) ∨
          (b.prepare.run before.state).value = .ok () ∧
            here.state =
              ((b.parse code limit).run (b.prepare.run before.state).state).state) := by
  intro run seen
  have hsame := mapM_validate_erases b limit codes ((0, p), ⟨world, []⟩) (p, world) ⟨rfl, rfl⟩
  obtain ⟨p', calls, -, hevents, htrials⟩ := run_mapM_trials b limit 0 codes p ⟨world, []⟩
  have hreported : List.Forall₂ (fun tried during ↦ Reported 0 limit tried.1 during tried.2)
      (codes.zip run.value) calls := by
    change seen.value = run.value ∧ _ at hsame
    rw [← hsame.1]
    exact htrials.imp fun _ _ ↦ Trial.reported
  refine ⟨hsame, Act.length_run_mapM _ _ codes, ⟨calls, hevents, hreported⟩, Verdict.error?_said,
    ?_, ?_, ?_, fun _ ↦ rfl, fun _ ↦ rfl, ?_⟩
  · exact fun failure ↦ ⟨failure.isAllBlank_message, failure.error?_failed⟩
  · rintro text ⟨c, hmem, hc⟩
    exact Failure.message_rejected hmem hc
  · exact fun text ↦ Failure.message_rejected_blank
  · rintro front code back rfl
    exact ⟨run_validate_between b limit front back code (p, world),
      run_validate_state b limit code _⟩

end Backend

end FenceLint
