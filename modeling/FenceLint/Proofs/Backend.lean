import FenceLint.Backend

/-!
One validation. A parser that cannot get ready is not asked, any other is asked once, and the verdict
is read off the answer. So with parsers that are always ready and answer by the code alone, verdicts
are a function of the code.
-/

set_option autoImplicit false

namespace FenceLint.Backend

variable {ω π : Type}

/-- What is reported of a code, by the answer on it. -/
def reasonOf : Except Failure Unit → Option Reason
  | .ok () => none
  | .error failure => some (Reason.ofString failure.message)

theorem verdict_reason (answer : Except Failure Unit × Duration) :
    (verdict answer).reason? = reasonOf answer.1 := by
  rcases answer with ⟨failure | _, elapsed⟩ <;> rfl

variable (b : Backend ω π) (limit : Option Duration) (code : String) (s : π × ω)

theorem run_validate_unready {failure : Failure} (h : (b.prepare.run s).value = .error failure) :
    ((b.validate limit code).run s).value = verdict (.error failure, .zero) ∧
      ((b.validate limit code).run s).state = (b.prepare.run s).state := by
  simp [validate, h]

theorem run_validate_ready (h : (b.prepare.run s).value = .ok ()) :
    let asked := (b.parse code limit).run (b.prepare.run s).state
    ((b.validate limit code).run s).value = verdict asked.value ∧
      ((b.validate limit code).run s).state = asked.state := by
  simp [validate, h]

variable {b limit} {f : String → Except Failure Unit}

/-- Verdicts on codes in a row, where the answer depends on the code alone. -/
theorem run_mapM_validate (hready : ∀ s, (b.prepare.run s).value = .ok ())
    (hanswer : ∀ code s, ((b.parse code limit).run s).value.1 = f code) (codes : List String) :
    ((codes.mapM (b.validate limit)).run s).value.map Verdict.reason? =
      codes.map fun code ↦ reasonOf (f code) := by
  induction codes generalizing s with
  | nil => rfl
  | cons code rest ih =>
    rw [List.mapM_cons]
    simp only [Act.run_bind, Act.run_pure, List.map_cons]
    rw [(run_validate_ready b limit code s (hready s)).1, verdict_reason, hanswer, ih]

end FenceLint.Backend
