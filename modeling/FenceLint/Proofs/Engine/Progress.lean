import FenceLint.Proofs.Backend
import FenceLint.Proofs.Engine.Step
import FenceLint.Proofs.Harness.Exchange

/-!
Engines that come to an answer. A question stalls the machine only where a request is stuck in front
of a process or where nothing limits the wait. So processes that make way for every request never
stall it under a limit, whatever they answer and however often they are started anew.
-/

set_option autoImplicit false

namespace FenceLint

namespace Harness

/-- Writing to a process of this kind comes to an end: unless it reads on, its input holds whatever
is written. -/
def Program.Drains (program : Program) (stance : Stance) : Prop :=
  stance ≠ .clogged ∧ (stance = .silent → ∀ lines, program.holds lines = true)

/-- A program that makes way for every request, at the start and after each reply. -/
structure Program.Yielding (program : Program) : Prop where
  opening : program.Drains program.opening.stance
  reply : ∀ heard, program.Drains (program.reply heard).stance

/-- A process that makes way for every request now and later. -/
structure Child.Yielding (child : Child) : Prop where
  program : child.program.Yielding
  stance : child.program.Drains child.stance

namespace Child.Yielding

variable {child : Child} {line : String}

theorem not_stuck (h : child.Yielding) : child.send line ≠ .error .stuck := by
  intro hstuck
  rw [send] at hstuck
  cases hstance : child.stance with
  | listening =>
    rw [hstance] at hstuck
    cases hstuck
  | silent =>
    rw [hstance] at hstuck
    simp only [h.stance.2 hstance, if_true] at hstuck
    cases hstuck
  | clogged => exact h.stance.1 hstance
  | deaf =>
    rw [hstance] at hstuck
    cases hstuck
  | ended =>
    rw [hstance] at hstuck
    cases hstuck

theorem send {after : Child} (h : child.Yielding) (hsent : child.send line = .ok after) :
    after.Yielding := by
  rcases send_cases hsent with ⟨-, rfl⟩ | ⟨-, -, rfl⟩
  · exact ⟨h.program, h.program.reply _⟩
  · exact ⟨h.program, h.stance⟩

end Child.Yielding

/-- A wait with a limit comes to an answer. -/
theorem awaitAnswer_limited (id : Nat) (limit : Duration) (stance : Stance)
    (signals : List Signal) : (awaitAnswer id (some limit) stance signals).answer ≠ none := by
  intro hnone
  obtain ⟨read, -, passed, last, -, -, hdecides⟩ :=
    awaitAnswer_concludes id (some limit) stance signals
  rw [hnone] at hdecides
  generalize (awaitAnswer id (some limit) stance signals).unread = left at hdecides
  cases hdecides with
  | endless _ hlimit => exact nomatch hlimit

/-- A process that makes way is asked with an answer under a limit, and still makes way then. -/
theorem Session.ask_yielding {s : Session} (h : s.child.Yielding) (code : String)
    (limit : Duration) :
    (s.ask code (some limit)).answer ≠ none ∧
      (s.ask code (some limit)).session.child.Yielding := by
  cases hsent : s.child.send (requestLine s.nextId code) with
  | ok child =>
    rw [ask_awaited hsent]
    exact ⟨awaitAnswer_limited _ _ _ _, (h.send hsent).program, (h.send hsent).stance⟩
  | error unsent =>
    rw [ask_refused hsent]
    cases unsent with
    | failed fault => exact ⟨nofun, h⟩
    | stuck => exact absurd hsent h.not_stuck

end Harness

namespace Engine

open Harness

/-- Starting a process does not stall the machine. -/
theorem openSession_stalled (node packages : String) (limit : Duration) (m : Machine) :
    ((openSession node packages limit).run m).state.stalled = m.stalled := by
  cases hexec : m.exec ⟨node, packages, m.script⟩ m.launches.length with
  | error fault => simp [openSession, hexec]
  | ok program =>
    cases hready : (awaitReady limit program.opening.stance program.opening.signals).answer with
    | error reason => simp [openSession, hexec, Child.start, hready, Machine.kill]
    | ok version => simp [openSession, hexec, Child.start, hready]

/-- A setup does not stall the machine, whatever comes of it. -/
theorem setup_stalled (site : Site) (config : Config) (m : Machine) :
    ((setup site config).run m).state.stalled = m.stalled := by
  cases hnode : locateNode site config.node? with
  | error e => simp [setup, hnode]
  | ok node =>
    have hstate : ((locatePackages site (Strategy.usual config.packages?)).run m).state = m :=
      tryEach_state site _ _ m
    cases hpackages : ((locatePackages site (Strategy.usual config.packages?)).run m).value with
    | error e => simp [setup, hnode, hpackages, hstate]
    | ok packages =>
      have hopen := openSession_stalled node packages config.startupLimit m
      cases hvalue : ((openSession node packages config.startupLimit).run m).value with
      | error reason => simp [setup, hnode, hpackages, hstate, hvalue, hopen]
      | ok u => simp [setup, hnode, hpackages, hstate, hvalue, hopen]

/-- Every process that a machine starts makes way for its requests. -/
def Machine.Yielding (m : Machine) : Prop :=
  ∀ launch n program, m.exec launch n = .ok program → program.Yielding

/-- A process that such a machine starts makes way for its requests. -/
theorem openSession_yielding {m : Machine} (h : m.Yielding) (node packages : String)
    (limit : Duration) :
    ((openSession node packages limit).run m).state.Yielding ∧
      ∀ u, ((openSession node packages limit).run m).value = .ok u → u.child.Yielding := by
  obtain ⟨fault, -, hvalue, hstate⟩ | ⟨program, hexec, -, hsame, -, hready⟩ :=
    openSession_cases node packages limit m
  · rw [hvalue, hstate]
    exact ⟨h, nofun⟩
  · refine ⟨fun launch n program ↦ hsame ▸ h launch n program, fun u hu ↦ ?_⟩
    obtain ⟨reason, -, hfailed⟩ | ⟨version, -, hvalue⟩ := hready
    · exact nomatch hfailed.symm.trans hu
    · rw [← Except.ok.inj (hvalue.symm.trans hu)]
      have hprogram := h _ _ program hexec
      exact ⟨hprogram, hprogram.opening⟩

/-- An engine on a machine that runs on, with processes that make way for their requests. -/
structure Flowing (s : Engine × Machine) : Prop where
  stalled : s.2.stalled = false
  machine : s.2.Yielding
  child : ∀ u, s.1.session? = some u → u.child.Yielding

namespace Flowing

variable {s : Engine × Machine}

/-- Getting a session leaves all that as it is, and the session is with such a process. -/
theorem session (h : Flowing s) : Flowing (Engine.session.run s).state ∧
    ∀ u, (Engine.session.run s).value = .ok u → u.child.Yielding := by
  cases hcurrent : s.1.session? with
  | some u =>
    obtain ⟨hvalue, hstate⟩ := session_kept s hcurrent
    rw [hvalue, hstate]
    exact ⟨h, fun u' hu' ↦ Except.ok.inj hu' ▸ h.child u hcurrent⟩
  | none =>
    obtain ⟨hmachine, hcases⟩ := session_opened s hcurrent
    obtain ⟨hyielding, hchild⟩ :=
      openSession_yielding h.machine s.1.node s.1.packages s.1.startupLimit
    have hstalled := (openSession_stalled s.1.node s.1.packages s.1.startupLimit s.2).trans h.stalled
    obtain ⟨reason, -, hvalue, hengine⟩ | ⟨u, hopened, hvalue, hengine⟩ := hcases
    · refine ⟨⟨hmachine ▸ hstalled, hmachine ▸ hyielding, ?_⟩, ?_⟩
      · rw [hengine]
        exact h.child
      · rw [hvalue]
        exact nofun
    · refine ⟨⟨hmachine ▸ hstalled, hmachine ▸ hyielding, ?_⟩, ?_⟩
      · rw [hengine]
        exact fun u' hu' ↦ Option.some.inj hu' ▸ hchild u hopened
      · rw [hvalue]
        exact fun u' hu' ↦ Except.ok.inj hu' ▸ hchild u hopened

theorem parse (h : Flowing s) (code : String) (limit : Duration) :
    Flowing ((Engine.parse code (some limit)).run s).state := by
  obtain ⟨hgot, hchild⟩ := h.session
  cases hvalue : (Engine.session.run s).value with
  | error failure =>
    rw [(parse_unasked s code (some limit) hvalue).2]
    exact hgot
  | ok u =>
    obtain ⟨-, hengine, -, hsame, -, hstalled⟩ := parse_asked s code (some limit) hvalue
    obtain ⟨hanswer, hafter⟩ := Session.ask_yielding (hchild u hvalue) code limit
    refine ⟨?_, fun launch n program ↦ hsame ▸ hgot.machine launch n program, ?_⟩
    · rw [hstalled, hgot.stalled, Bool.false_or, Option.isNone_eq_false_iff,
        Option.isSome_iff_ne_none]
      exact hanswer
    · rw [hengine]
      intro u' hu'
      cases hbroken : isBrokenAnswer (u.ask code (some limit)).verdict with
      | true =>
        rw [hbroken] at hu'
        exact nomatch hu'
      | false =>
        rw [hbroken] at hu'
        exact Option.some.inj hu' ▸ hafter

theorem validate (h : Flowing s) (limit : Duration) (code : String) :
    Flowing ((backend.validate (some limit) code).run s).state := by
  have hprepared : Flowing (prepare.run s).state := by
    rw [(prepare_run s).1]
    exact h.session.1
  cases hready : (prepare.run s).value with
  | error failure =>
    rw [(Backend.run_validate_unready backend (some limit) code s hready).2]
    exact hprepared
  | ok _ =>
    rw [(Backend.run_validate_ready backend (some limit) code s hready).2]
    exact hprepared.parse code limit

/-- However many codes are validated, the machine runs on. -/
theorem run (h : Flowing s) (limit : Duration) (codes : List String) :
    Flowing ((codes.mapM (backend.validate (some limit))).run s).state := by
  induction codes generalizing s with
  | nil => exact h
  | cons code rest ih =>
    rw [List.mapM_cons]
    exact ih (h.validate limit code)

/-- An engine that is set up on a machine that runs on. -/
theorem setup {site : Site} {config : Config} {m : Machine} {engine : Engine}
    (hsetup : ((Engine.setup site config).run m).value = .ok engine) (hstalled : m.stalled = false)
    (hyielding : m.Yielding) : Flowing (engine, ((Engine.setup site config).run m).state) := by
  obtain ⟨u, hsession, hopen, hstate⟩ := setup_ok hsetup
  obtain ⟨hmachine, hchild⟩ :=
    openSession_yielding hyielding engine.node engine.packages engine.startupLimit
  refine ⟨(setup_stalled site config m).trans hstalled, hstate ▸ hmachine, fun u' hu' ↦ ?_⟩
  exact Option.some.inj (hsession.symm.trans hu') ▸ hchild u hopen

end Flowing

end Engine

end FenceLint
