import FenceLint.Proofs.CommandLine.Answer

/-!
The stages of a run, each with what it hands on: the status and the output are those of the answer,
the directory for block files is made before the targets are checked and parted with after that, and
ending the engine is the last that happens to its machine.
-/

set_option autoImplicit false

namespace FenceLint

namespace CommandLine

/-- The exit status of an answer. -/
def statusOf : Except Error (Outcome × String) → Nat
  | .ok answer => answer.1.exitCode
  | .error e => e.outcome.exitCode

/-- What is printed of an answer. -/
def printedOf : Except Error (Outcome × String) → String
  | .ok answer => answer.2
  | .error _ => ""

section

variable (site : Site) {o : Options} (s : Artifact.Area × Engine.Machine)

/-- The program ends as the options are carried out. -/
theorem run_execute {arguments : List String} (hparse : Options.parse arguments = .ok o)
    (hhelp : o.help = false) :
    let carried := (carryOut site o).run s
    let r := (execute site arguments).run s
    r.value.exitCode = statusOf carried.value ∧ r.value.output = printedOf carried.value ∧
      r.state = carried.state := by
  intro carried r
  have hlogged : ((runLogged site o).run s).value =
        (statusOf carried.value, printedOf carried.value) ∧
      ((runLogged site o).run s).state = carried.state := by
    unfold runLogged
    rw [hhelp]
    simp only [Bool.false_eq_true, if_false, Act.run_bind]
    cases carried.value with
    | ok answer => exact ⟨rfl, rfl⟩
    | error e => exact ⟨rfl, rfl⟩
  have hrun : r = (run site o).run s := by
    simp only [r, execute, hparse]
  rw [hrun]
  unfold run
  cases o.logging site with
  | ok config =>
    simp only [Act.run_bind, hlogged]
    exact ⟨rfl, rfl, rfl⟩
  | error e =>
    simp only [Act.run_bind, hlogged, say, Act.run_tell]
    exact ⟨rfl, rfl, rfl⟩

end

/-- The scene in which the targets are checked: a new checker holds the directory. -/
def started (site : Site) (o : Options) (dir : Artifact.Dir) (area : Artifact.Area)
    (machine : Engine.Machine) : Scene Engine.Machine Engine :=
  ⟨{ o.checker site with artifacts := some dir }, area, machine⟩

/-- What the run leaves of its directory. -/
def parted (o : Options) (dir : Artifact.Dir) (area : Artifact.Area) : Artifact.Area :=
  if o.keepTemp then area else (dir.close.run area).state

/-- Parting with the directory is the last that happens to it. -/
theorem partWithArtifacts_area (o : Options) {dir : Artifact.Dir}
    {s : Scene Engine.Machine Engine} (h : s.checker.artifacts = some dir) :
    ((partWithArtifacts o).run s).state.area = parted o dir s.area := by
  unfold partWithArtifacts parted
  simp only [Act.run_bind, Scene.takeArtifacts, Act.run_get, Act.run_modify, Act.run_pure, h]
  cases o.keepTemp with
  | true => rfl
  | false => rfl

theorem partWithArtifacts_world (o : Options) (s : Scene Engine.Machine Engine) :
    ((partWithArtifacts o).run s).state.world = s.world := by
  unfold partWithArtifacts
  simp only [Act.run_bind, Scene.takeArtifacts, Act.run_get, Act.run_modify, Act.run_pure]
  cases s.checker.artifacts with
  | none => rfl
  | some dir =>
    cases o.keepTemp with
    | true => rfl
    | false => rfl

/-- Ending the engine's process touches no directory, and the machine runs on if it did before. -/
theorem release_frame (s : Scene Engine.Machine Engine) :
    (Engine.release.run s).state.area = s.area ∧
      (Engine.release.run s).state.world.stalled = s.world.stalled := by
  unfold Engine.release
  simp only [Act.run_bind, Act.run_get]
  cases s.checker.parser? with
  | none => exact ⟨rfl, rfl⟩
  | some engine =>
    cases hsession : engine.session? with
    | none => simp [Engine.stop, Engine.setSession, hsession]
    | some u => simp [Engine.stop, Engine.setSession, Engine.onMachine, Engine.Machine.kill, hsession]

section

variable (site : Site) (o : Options) (t : Targets) (area : Artifact.Area)
  (machine : Engine.Machine)

/-- Targets are checked with a new checker, and the directory is parted with whatever comes of
that. -/
theorem run_checkKeeping (dir : Artifact.Dir)
    (h : ((check site o t).run (started site o dir area machine)).state.checker.artifacts =
      some dir) :
    let checked := (check site o t).run (started site o dir area machine)
    let r := (checkKeeping site o t dir).run (area, machine)
    r.value = checked.value ∧ r.state.1 = parted o dir checked.state.area ∧
      r.state.2.stalled = checked.state.world.stalled := by
  intro checked r
  let left := ((partWithArtifacts o).run checked.state).state
  have hreleased : r.state =
      ((Engine.release.run left).state.area, (Engine.release.run left).state.world) := rfl
  obtain ⟨harea, hworld⟩ := release_frame left
  rw [hreleased, harea, hworld]
  exact ⟨rfl, partWithArtifacts_area o h,
    congrArg Engine.Machine.stalled (partWithArtifacts_world o checked.state)⟩

/-- Without targets nothing is done. -/
theorem run_carryOut_unresolved {e : Error}
    (h : Targets.resolve site.disk o.inputs o.dir? o.recursive = .error e) :
    ((carryOut site o).run (area, machine)).value = .error e ∧
      ((carryOut site o).run (area, machine)).state = (area, machine) := by
  unfold carryOut sayIf
  rw [h]
  cases o.verbose with
  | true => exact ⟨rfl, rfl⟩
  | false => exact ⟨rfl, rfl⟩

variable {t}

/-- Without a directory for block files nothing is done. -/
theorem run_carryOut_refused (h : Targets.resolve site.disk o.inputs o.dir? o.recursive = .ok t)
    {fault : Fault} (hrefusal : area.refusal? = some fault) :
    ((carryOut site o).run (area, machine)).value =
        .error (.unreadable area.root fault) ∧
      ((carryOut site o).run (area, machine)).state = (area, machine) := by
  unfold carryOut sayIf
  rw [h]
  cases o.verbose with
  | true => simp [say, Artifact.run_create_refused area hrefusal]
  | false => simp [Artifact.run_create_refused area hrefusal]

/-- With both the targets are checked, and the answer is that of the check. -/
theorem run_carryOut_made (h : Targets.resolve site.disk o.inputs o.dir? o.recursive = .ok t)
    (hrefusal : area.refusal? = none) :
    let r := (checkKeeping site o t area.nextDir).run (area.grown, machine)
    ((carryOut site o).run (area, machine)).value = r.value ∧
      ((carryOut site o).run (area, machine)).state = r.state := by
  intro r
  obtain ⟨hvalue, hstate⟩ := Artifact.run_create_made area hrefusal
  have hsaid : ((sayFinished o r.value).run r.state).state = r.state := by
    unfold sayFinished sayIf
    cases r.value with
    | error e => rfl
    | ok answer =>
      cases o.verbose with
      | true => rfl
      | false => rfl
  unfold carryOut sayIf
  rw [h]
  cases o.verbose with
  | true => simpa [say, hvalue, hstate, r] using hsaid
  | false => simpa [hvalue, hstate, r] using hsaid

end

end CommandLine

end FenceLint
