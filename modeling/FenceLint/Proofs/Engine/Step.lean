import FenceLint.Engine.Basic

/-!
What each operation of the engine can do, told once: starting a process, getting a session, and
asking about a code. All else that holds of runs is derived from these cases.
-/

set_option autoImplicit false

namespace FenceLint.Engine

open Harness

/-- Starting a process fails at once, or it adds a launch and then fails or succeeds as the process
gets ready. -/
theorem openSession_cases (node packages : String) (limit : Duration) (m : Machine) :
    let launch : Launch := ⟨node, packages, m.script⟩
    let r := (openSession node packages limit).run m
    (∃ fault, m.exec launch m.launches.length = .error fault ∧
      r.value = .error s!"failed to start {node}: {fault.text}" ∧
      r.state = { m with lives := m.lives ++ [Life.refused] }) ∨
    (∃ program, m.exec launch m.launches.length = .ok program ∧
      r.state.script = m.script ∧ r.state.exec = m.exec ∧
      r.state.launches = m.launches ++ [launch] ∧
      let w := awaitReady limit program.opening.stance program.opening.signals
      ((∃ reason, w.answer = .error reason ∧ r.value = .error reason) ∨
        (∃ version, w.answer = .ok version ∧ r.value = .ok ⟨m.launches.length,
          { Child.start program with unread := w.unread }, 0, version⟩))) := by
  intro launch r
  rcases hexec : m.exec launch m.launches.length with fault | program
  · refine .inl ⟨fault, rfl, ?_, ?_⟩ <;> simp [r, openSession, launch, hexec]
  · refine .inr ⟨program, rfl, ?_⟩
    rcases hready : (awaitReady limit program.opening.stance program.opening.signals).answer
      with reason | version
    · simp [r, openSession, launch, hexec, Child.start, hready, Machine.kill]
    · simp [r, openSession, launch, hexec, Child.start, hready]

theorem tryEach_state {σ : Type} (site : Site) (tried strategies : List Strategy) (m : σ) :
    ((tryEach site tried strategies).run m).state = m := by
  induction strategies with
  | nil => rfl
  | cons strategy rest ih =>
    rcases hdir : strategy.resolve site with _ | dir
    · simpa [tryEach, hdir] using ih
    · simp [tryEach, hdir]

/-- An engine that is set up has the session that starting a process gave. -/
theorem setup_ok {site : Site} {config : Config} {m : Machine} {engine : Engine}
    (h : ((setup site config).run m).value = .ok engine) :
    ∃ u, engine.session? = some u ∧
      ((openSession engine.node engine.packages engine.startupLimit).run m).value = .ok u ∧
      ((setup site config).run m).state =
        ((openSession engine.node engine.packages engine.startupLimit).run m).state := by
  rcases hnode : locateNode site config.node? with e | node
  · simp [setup, hnode] at h
  have hstate : ((locatePackages site (Strategy.usual config.packages?)).run m).state = m :=
    tryEach_state site _ _ m
  rcases hpackages : ((locatePackages site (Strategy.usual config.packages?)).run m).value
    with e | packages
  · simp [setup, hnode, hpackages] at h
  rcases hopen : ((openSession node packages config.startupLimit).run m).value with reason | u
  · simp [setup, hnode, hpackages, hstate, hopen] at h
  · simp [setup, hnode, hpackages, hstate, hopen] at h
    subst h
    exact ⟨u, rfl, hopen, by simp [setup, hnode, hpackages, hstate, hopen]⟩

theorem tryEach_error {σ : Type} {site : Site} {tried strategies : List Strategy} {m : σ}
    {e : Error} (h : ((tryEach site tried strategies).run m).value = .error e) :
    ∃ message, e = .setup message := by
  induction strategies with
  | nil => exact ⟨notFoundMessage tried, (Except.error.inj h).symm⟩
  | cons strategy rest ih =>
    cases hdir : strategy.resolve site with
    | none =>
      simp only [tryEach, Act.run_bind, Act.run_log, hdir] at h
      exact ih h
    | some dir =>
      simp only [tryEach, Act.run_bind, Act.run_log, hdir, Act.run_pure] at h
      exact nomatch h

theorem locateNode_error {site : Site} {path? : Option String} {e : Error}
    (h : locateNode site path? = .error e) : ∃ message, e = .setup message := by
  unfold locateNode at h
  split at h
  · split at h
    · exact nomatch h
    · exact ⟨_, (Except.error.inj h).symm⟩
  · split at h
    · exact nomatch h
    · exact ⟨_, (Except.error.inj h).symm⟩

/-- Whatever keeps the engine from being set up is an error of setup. -/
theorem setup_error {site : Site} {config : Config} {m : Machine} {e : Error}
    (h : ((setup site config).run m).value = .error e) : ∃ message, e = .setup message := by
  cases hnode : locateNode site config.node? with
  | error e' =>
    have hsame : e' = e := by simpa [setup, hnode] using h
    exact locateNode_error (hsame ▸ hnode)
  | ok node =>
    cases hpackages : ((locatePackages site (Strategy.usual config.packages?)).run m).value with
    | error e' =>
      have hsame : e' = e := by simpa [setup, hnode, hpackages] using h
      exact tryEach_error (hsame ▸ hpackages)
    | ok packages =>
      have hstate : ((locatePackages site (Strategy.usual config.packages?)).run m).state = m :=
        tryEach_state site _ _ m
      cases hopen : ((openSession node packages config.startupLimit).run m).value with
      | error reason =>
        have hsame : Error.setup reason = e := by
          simpa [setup, hnode, hpackages, hstate, hopen] using h
        exact ⟨reason, hsame.symm⟩
      | ok u =>
        simp [setup, hnode, hpackages, hstate, hopen] at h

/-- What is said of a process that cannot be started again. -/
def notRestarted (reason : String) : Failure :=
  .crashed s!"could not restart parser: {(Error.setup reason).message}"

section

variable (s : Engine × Machine)

/-- An engine with a session keeps it. -/
theorem session_kept {u : Session} (h : s.1.session? = some u) :
    (session.run s).value = .ok u ∧ (session.run s).state = s := by
  simp [session, restart, h]

/-- An engine without a session starts a process. -/
theorem session_opened (h : s.1.session? = none) :
    let opening := (openSession s.1.node s.1.packages s.1.startupLimit).run s.2
    (session.run s).state.2 = opening.state ∧
    ((∃ reason, opening.value = .error reason ∧
        (session.run s).value = .error (notRestarted reason) ∧ (session.run s).state.1 = s.1) ∨
      (∃ u, opening.value = .ok u ∧ (session.run s).value = .ok u ∧
        (session.run s).state.1 = { s.1 with session? := some u })) := by
  intro opening
  rcases hopening : opening.value with reason | u
  · simp [session, restart, h, onMachine, opening, hopening, notRestarted]
  · simp [session, restart, h, onMachine, opening, hopening, setSession]

theorem prepare_run : (prepare.run s).state = (session.run s).state ∧
    (prepare.run s).value = (session.run s).value.map fun _ ↦ () := by
  rcases h : (session.run s).value with failure | u
  · simp [prepare, h, Except.map]
  · simp [prepare, h, Except.map]

variable (code : String) (limit? : Option Duration)

/-- Without a session there is nobody to ask. -/
theorem parse_unasked {failure : Failure} (h : (session.run s).value = .error failure) :
    ((parse code limit?).run s).value.1 = .error failure ∧
      ((parse code limit?).run s).state = (session.run s).state := by
  simp [parse, h]

/-- Whether an answer means that the process is of no more use. -/
def isBrokenAnswer : Except Failure Unit → Bool
  | .ok () => false
  | .error failure => isBroken failure

/-- The session is asked, and kept unless its process is of no more use. -/
theorem parse_asked {u : Session} (h : (session.run s).value = .ok u) :
    let asked := u.ask code limit?
    let before := (session.run s).state
    let r := (parse code limit?).run s
    r.value.1 = asked.verdict ∧
    r.state.1 = { before.1 with
      session? := if isBrokenAnswer asked.verdict then none else some asked.session } ∧
    r.state.2.script = before.2.script ∧ r.state.2.exec = before.2.exec ∧
    r.state.2.launches = before.2.launches ∧
    r.state.2.stalled = (before.2.stalled || asked.answer.isNone) := by
  intro asked before r
  rcases hverdict : asked.verdict with failure | _
  · by_cases hbroken : isBroken failure
    · simp [r, parse, h, before, onMachine, askSession, asked, hverdict, hbroken, isBrokenAnswer,
        stop, setSession, Machine.kill]
    · simp [r, parse, h, before, onMachine, askSession, asked, hverdict, hbroken, isBrokenAnswer,
        setSession]
  · simp [r, parse, h, before, onMachine, askSession, asked, hverdict, isBrokenAnswer, setSession]

end

end FenceLint.Engine
