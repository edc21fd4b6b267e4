import FenceLint.Proofs.Engine.Isolation

/-!
The lives of harness processes. An engine has at most one process at any moment, which is that of its
session: it starts one only when it has none (`restart`), and every way of losing the session ends
the process first. So the record of starts and ends is one of processes that come one by one
(`OneByOne`), which each operation carries on (`Tended`). What comes of a launch may change from call
to call, so a start that fails once may succeed when the next call tries again.
-/

set_option autoImplicit false

namespace FenceLint.Engine

open Harness

namespace Life

/-- Whether a process was to be started. -/
def isTry : Life → Bool
  | refused => true
  | started _ => true
  | ended _ => false

/-- The processes that are alive after one more happening. -/
def next (alive : List Nat) : Life → List Nat
  | refused => alive
  | started number => alive ++ [number]
  | ended number => alive.erase number

/-- The processes that are alive after all this. -/
def alive (lives : List Life) : List Nat := lives.foldl next []

end Life

/-- What may happen where at most one process is alive, and the one that is alive then. -/
inductive Life.Follows : Option Nat → Life → Option Nat → Prop
  | refused : Follows none .refused none
  | started (number : Nat) : Follows none (.started number) (some number)
  | ended (number : Nat) : Follows (some number) (.ended number) none

/-- Processes that come one by one, and the one that is alive in the end. -/
inductive OneByOne : List Life → Option Nat → Prop
  | nil : OneByOne [] none
  | concat {lives : List Life} {life : Life} {now next : Option Nat} (h : OneByOne lives now)
    (hnext : life.Follows now next) : OneByOne (lives ++ [life]) next

/-- Since the first machine at most one process has been alive at any moment, and these are alive on
the second one. -/
def Single (m m' : Machine) (now : List Nat) : Prop :=
  ∃ since, m'.lives = m.lives ++ since ∧
    (∀ moment, moment <+: since → (Life.alive moment).length ≤ 1) ∧ Life.alive since = now

/-- Between two machines so many starts were tried. -/
def Tries (m m' : Machine) (count : Nat) : Prop :=
  ∃ during, m'.lives = m.lives ++ during ∧ during.countP Life.isTry = count

/-- A call, and what comes of a launch when it is made. -/
structure Round where
  exec : Launch → Nat → Except Fault Program
  call : Call

namespace Round

/-- The state as the call finds it. -/
def enter (round : Round) (s : Engine × Machine) : Engine × Machine :=
  (s.1, { s.2 with exec := round.exec })

/-- What the call comes to. -/
def play (round : Round) (s : Engine × Machine) : Ran (Engine × Machine) (Except Failure Unit) :=
  round.call.perform.run (round.enter s)

end Round

/-- The state after some calls. -/
def afterRounds (s : Engine × Machine) : List Round → Engine × Machine
  | [] => s
  | round :: rest => afterRounds (round.play s).state rest

/-- The process of the session, if there is one. -/
def held (s : Engine × Machine) : Option Nat := s.1.session?.map Session.number

section Records

variable {lives : List Life} {now : Option Nat}

theorem Life.alive_concat (lives : List Life) (life : Life) :
    alive (lives ++ [life]) = next (alive lives) life :=
  List.foldl_concat ..

namespace OneByOne

theorem alive_eq (h : OneByOne lives now) : Life.alive lives = now.toList := by
  induction h with
  | nil => rfl
  | concat _ hnext ih =>
    rw [Life.alive_concat, ih]
    cases hnext with
    | refused => rfl
    | started number => rfl
    | ended number => exact List.erase_cons_head ..

/-- At most one process is alive at any moment. -/
theorem length_alive_le (h : OneByOne lives now) {moment : List Life} (hmoment : moment <+: lives) :
    (Life.alive moment).length ≤ 1 := by
  induction h with
  | nil =>
    rw [List.prefix_nil.mp hmoment]
    exact Nat.zero_le 1
  | @concat lives life now next h hnext ih =>
    rcases List.prefix_concat_iff.mp hmoment with rfl | hbefore
    · rw [(h.concat hnext).alive_eq]
      cases next with
      | none => exact Nat.zero_le 1
      | some number => exact Nat.le_refl 1
    · exact ih hbefore

end OneByOne

end Records

/-- What getting a session does: it is there, or one start is tried and may fail in two ways. -/
inductive Getting (s t : Engine × Machine) : Except Failure Session → Prop
  | kept (u : Session) (hheld : s.1.session? = some u) (hsame : t = s) : Getting s t (.ok u)
  | opened (u : Session) (hnone : s.1.session? = none) (hafter : t.1.session? = some u)
    (hlives : t.2.lives = s.2.lives ++ [.started u.number]) : Getting s t (.ok u)
  | refused (reason : String) (hnone : s.1.session? = none) (hafter : t.1.session? = none)
    (hlives : t.2.lives = s.2.lives ++ [.refused]) : Getting s t (.error (notRestarted reason))
  | unready (reason : String) (number : Nat) (hnone : s.1.session? = none)
    (hafter : t.1.session? = none)
    (hlives : t.2.lives = s.2.lives ++ [.started number] ++ [.ended number]) :
    Getting s t (.error (notRestarted reason))

section Operations

/-- A start is refused, or it gives a process, which is ended again unless it gets ready. -/
theorem openSession_lives (node packages : String) (limit : Duration) (m : Machine) :
    let r := (openSession node packages limit).run m
    (∃ reason, r.value = .error reason ∧
      (r.state.lives = m.lives ++ [.refused] ∨
        ∃ number, r.state.lives = m.lives ++ [.started number] ++ [.ended number])) ∨
    ∃ u, r.value = .ok u ∧ r.state.lives = m.lives ++ [.started u.number] := by
  intro r
  rcases openSession_cases node packages limit m with ⟨fault, -, hvalue, hstate⟩ |
    ⟨program, hexec, -, -, -, ⟨reason, hready, hvalue⟩ | ⟨version, hready, hvalue⟩⟩
  · exact .inl ⟨_, hvalue, .inl (congrArg Machine.lives hstate)⟩
  · refine .inl ⟨reason, hvalue, .inr ⟨m.launches.length, ?_⟩⟩
    simp [r, openSession, hexec, Child.start, hready, Machine.kill]
  · refine .inr ⟨_, hvalue, ?_⟩
    simp [r, openSession, hexec, Child.start, hready]

/-- A fault of the machine is told. -/
theorem openSession_refused (node packages : String) (limit : Duration) {m : Machine}
    {fault : Fault} (h : m.exec ⟨node, packages, m.script⟩ m.launches.length = .error fault) :
    ((openSession node packages limit).run m).value =
      .error s!"failed to start {node}: {fault.text}" := by
  simp [openSession, h]

variable (s : Engine × Machine)

theorem session_getting : Getting s (session.run s).state (session.run s).value := by
  cases hcurrent : s.1.session? with
  | some u =>
    obtain ⟨hvalue, hstate⟩ := session_kept s hcurrent
    rw [hvalue]
    exact .kept u hcurrent hstate
  | none =>
    obtain ⟨hmachine, hcases⟩ := session_opened s hcurrent
    have hopening := openSession_lives s.1.node s.1.packages s.1.startupLimit s.2
    dsimp only at hopening
    rw [← hmachine] at hopening
    rcases hcases with ⟨reason, hfailed, hvalue, hengine⟩ | ⟨u, hopened, hvalue, hengine⟩
    · rw [hvalue]
      have hafter : (session.run s).state.1.session? = none := by rw [hengine, hcurrent]
      rcases hopening with ⟨-, -, hlives | ⟨number, hlives⟩⟩ | ⟨u, hopened, -⟩
      · exact .refused reason hcurrent hafter hlives
      · exact .unready reason number hcurrent hafter hlives
      · exact nomatch hopened.symm.trans hfailed
    · rw [hvalue]
      have hafter : (session.run s).state.1.session? = some u := by rw [hengine]
      rcases hopening with ⟨reason, hfailed, -⟩ | ⟨u', hopened', hlives⟩
      · exact nomatch hfailed.symm.trans hopened
      · obtain rfl := Except.ok.inj (hopened'.symm.trans hopened)
        exact .opened u' hcurrent hafter hlives

/-- The session that is got is the one that is held then. -/
theorem session_held {u : Session} (h : (session.run s).value = .ok u) :
    held (session.run s).state = some u.number := by
  have hgetting := session_getting s
  rw [h] at hgetting
  cases hgetting with
  | kept _ hheld hsame => rw [hsame, held, hheld, Option.map_some]
  | opened _ _ hafter => rw [held, hafter, Option.map_some]

variable (code : String) (limit? : Option Duration)

/-- Asking starts nothing, and it ends the process that is of no more use. -/
theorem parse_lives {u : Session} (h : (session.run s).value = .ok u) :
    ((parse code limit?).run s).state.2.lives = (session.run s).state.2.lives ++
      if isBrokenAnswer (u.ask code limit?).verdict then [.ended u.number] else [] := by
  have hnumber := u.ask_number code limit?
  cases hverdict : (u.ask code limit?).verdict with
  | ok =>
    simp [parse, h, onMachine, askSession, hverdict, isBrokenAnswer, setSession]
  | error failure =>
    by_cases hbroken : isBroken failure
    · simp [parse, h, onMachine, askSession, hverdict, hbroken, isBrokenAnswer, stop, setSession,
        Machine.kill, hnumber]
    · simp [parse, h, onMachine, askSession, hverdict, hbroken, isBrokenAnswer, setSession]

/-- A call fails for want of a session, or it gets one and has an answer from it, which tells whether
the session is still held. -/
theorem call_cases (call : Call) :
    let t := (session.run s).state
    let r := call.perform.run s
    (∃ failure, (session.run s).value = .error failure ∧ r.value = .error failure ∧ r.state = t) ∨
    (∃ u, (session.run s).value = .ok u ∧ isBrokenAnswer r.value = false ∧
      held r.state = some u.number ∧ r.state.2.lives = t.2.lives) ∨
    (∃ u, (session.run s).value = .ok u ∧ isBrokenAnswer r.value = true ∧
      held r.state = none ∧ r.state.2.lives = t.2.lives ++ [.ended u.number]) := by
  intro t r
  cases hsession : (session.run s).value with
  | error failure =>
    left
    cases call with
    | prepare =>
      obtain ⟨hstate, hvalue⟩ := prepare_run s
      rw [hsession] at hvalue
      exact ⟨failure, rfl, hvalue, hstate⟩
    | parse code limit? =>
      obtain ⟨hvalue, hstate⟩ := parse_unasked s code limit? hsession
      exact ⟨failure, rfl, hvalue, hstate⟩
  | ok u =>
    right
    cases call with
    | prepare =>
      obtain ⟨hstate, hvalue⟩ := prepare_run s
      rw [hsession] at hvalue
      refine .inl ⟨u, rfl, ?_, ?_, congrArg (·.2.lives) hstate⟩
      · exact congrArg isBrokenAnswer hvalue
      · exact (congrArg held hstate).trans (session_held s hsession)
    | parse code limit? =>
      obtain ⟨hvalue, hengine, -⟩ := parse_asked s code limit? hsession
      have hlives := parse_lives s code limit? hsession
      have hanswer : isBrokenAnswer r.value = isBrokenAnswer (u.ask code limit?).verdict :=
        congrArg isBrokenAnswer hvalue
      have hheld : held r.state = (if isBrokenAnswer (u.ask code limit?).verdict then none
          else some (u.ask code limit?).session).map Session.number :=
        congrArg (fun engine : Engine ↦ engine.session?.map Session.number) hengine
      cases hbroken : isBrokenAnswer (u.ask code limit?).verdict with
      | false =>
        rw [hbroken] at hanswer hheld hlives
        refine .inl ⟨u, rfl, hanswer, hheld.trans ?_, hlives.trans (List.append_nil _)⟩
        exact congrArg some (u.ask_number code limit?)
      | true =>
        rw [hbroken] at hanswer hheld hlives
        exact .inr ⟨u, rfl, hanswer, hheld, hlives⟩

theorem stop_run : held (stop.run s).state = none ∧
    (stop.run s).state.2.lives = s.2.lives ++ (held s).toList.map Life.ended := by
  cases hsession : s.1.session? with
  | none => simp [stop, hsession, setSession, held]
  | some u => simp [stop, hsession, setSession, held, onMachine, Machine.kill]

end Operations

/-- Since the machine was `m` the processes of an engine have come one by one, and the one that is
alive is that of its session. -/
def Tended (m : Machine) (s : Engine × Machine) : Prop :=
  ∃ since, s.2.lives = m.lives ++ since ∧ OneByOne since (held s)

namespace Tended

variable {m : Machine} {s : Engine × Machine}

theorem single (h : Tended m s) : Single m s.2 (held s).toList := by
  obtain ⟨since, hlives, hsince⟩ := h
  exact ⟨since, hlives, fun moment ↦ hsince.length_alive_le, hsince.alive_eq⟩

/-- Nothing more has happened. -/
theorem same (h : Tended m s) {t : Engine × Machine} (hlives : t.2.lives = s.2.lives)
    (hheld : held t = held s) : Tended m t := by
  obtain ⟨since, hbefore, hsince⟩ := h
  exact ⟨since, hlives.trans hbefore, hheld.symm ▸ hsince⟩

theorem got (h : Tended m s) {t : Engine × Machine} {value : Except Failure Session}
    (hgetting : Getting s t value) : Tended m t := by
  obtain ⟨since, hbefore, hsince⟩ := h
  have hfree (hnone : s.1.session? = none) : OneByOne since none := by
    rwa [held, hnone] at hsince
  cases hgetting with
  | kept u _ hsame => exact hsame ▸ ⟨since, hbefore, hsince⟩
  | opened u hnone hafter hlives =>
    refine ⟨since ++ [.started u.number], ?_, ?_⟩
    · rw [hlives, hbefore, List.append_assoc]
    · rw [held, hafter]
      exact (hfree hnone).concat (.started u.number)
  | refused reason hnone hafter hlives =>
    refine ⟨since ++ [.refused], ?_, ?_⟩
    · rw [hlives, hbefore, List.append_assoc]
    · rw [held, hafter]
      exact (hfree hnone).concat .refused
  | unready reason number hnone hafter hlives =>
    refine ⟨since ++ [.started number] ++ [.ended number], ?_, ?_⟩
    · rw [hlives, hbefore, List.append_assoc, List.append_assoc, List.append_assoc]
    · rw [held, hafter]
      exact ((hfree hnone).concat (.started number)).concat (.ended number)

/-- The process of the session is ended. -/
theorem ended (h : Tended m s) {t : Engine × Machine} {number : Nat} (hheld : held s = some number)
    (hnone : held t = none) (hlives : t.2.lives = s.2.lives ++ [.ended number]) : Tended m t := by
  obtain ⟨since, hbefore, hsince⟩ := h
  rw [hheld] at hsince
  refine ⟨since ++ [.ended number], ?_, ?_⟩
  · rw [hlives, hbefore, List.append_assoc]
  · rw [hnone]
    exact hsince.concat (.ended number)

theorem call (h : Tended m s) (call : Call) : Tended m (call.perform.run s).state := by
  have hgot := h.got (session_getting s)
  rcases call_cases s call with ⟨-, -, -, hstate⟩ | ⟨u, hsession, -, hafter, hlives⟩ |
    ⟨u, hsession, -, hafter, hlives⟩
  · rw [hstate]
    exact hgot
  · exact hgot.same hlives (hafter.trans (session_held s hsession).symm)
  · exact hgot.ended (session_held s hsession) hafter hlives

theorem stop (h : Tended m s) : Tended m (Engine.stop.run s).state := by
  obtain ⟨hafter, hlives⟩ := stop_run s
  cases hheld : held s with
  | none =>
    rw [hheld] at hlives
    exact h.same (hlives.trans (List.append_nil _)) (hafter.trans hheld.symm)
  | some number =>
    rw [hheld] at hlives
    exact h.ended hheld hafter hlives

theorem rounds (h : Tended m s) (rounds : List Round) : Tended m (afterRounds s rounds) := by
  induction rounds generalizing s with
  | nil => exact h
  | cons round rest ih =>
    have hentered : Tended m (round.enter s) := h.same rfl rfl
    exact ih (hentered.call round.call)

/-- An engine that has been set up has one process, that of its session. -/
theorem setup {site : Site} {config : Config} {engine : Engine}
    (h : ((Engine.setup site config).run m).value = .ok engine) :
    Tended m (engine, ((Engine.setup site config).run m).state) := by
  obtain ⟨u, hsession, hopen, hstate⟩ := setup_ok h
  rcases openSession_lives engine.node engine.packages engine.startupLimit m with
    ⟨reason, hfailed, -⟩ | ⟨u', hopen', hlives⟩
  · exact nomatch hfailed.symm.trans hopen
  · obtain rfl := Except.ok.inj (hopen'.symm.trans hopen)
    refine ⟨[.started u'.number], ?_, ?_⟩
    · rw [hstate]
      exact hlives
    · rw [held, hsession]
      exact OneByOne.nil.concat (.started u'.number)

end Tended

section Calls

variable (s : Engine × Machine)

/-- One start is tried for a session, if there is none. -/
theorem Getting.tries {s t : Engine × Machine} {value : Except Failure Session}
    (h : Getting s t value) : Tries s.2 t.2 (if s.1.session?.isNone then 1 else 0) := by
  cases h with
  | kept u hheld hsame =>
    rw [hsame, hheld]
    exact ⟨[], (List.append_nil _).symm, rfl⟩
  | opened u hnone _ hlives =>
    rw [hnone]
    exact ⟨_, hlives, rfl⟩
  | refused reason hnone _ hlives =>
    rw [hnone]
    exact ⟨_, hlives, rfl⟩
  | unready reason number hnone _ hlives =>
    rw [hnone]
    exact ⟨_, hlives.trans (List.append_assoc ..), rfl⟩

theorem call_tries (call : Call) :
    Tries s.2 (call.perform.run s).state.2 (if s.1.session?.isNone then 1 else 0) := by
  obtain ⟨during, hduring, hcount⟩ := (session_getting s).tries
  rcases call_cases s call with ⟨-, -, -, hstate⟩ | ⟨-, -, -, -, hlives⟩ | ⟨u, -, -, -, hlives⟩
  · rw [hstate]
    exact ⟨during, hduring, hcount⟩
  · exact ⟨during, hlives.trans hduring, hcount⟩
  · refine ⟨during ++ [.ended u.number], ?_, ?_⟩
    · rw [hlives, hduring, List.append_assoc]
    · rw [List.countP_append, hcount]
      rfl

theorem isBrokenAnswer_eq_false_iff (answer : Except Failure Unit) :
    isBrokenAnswer answer = false ↔
      answer = .ok () ∨ ∃ message, answer = .error (.rejected message) := by
  cases answer with
  | ok => simp [isBrokenAnswer]
  | error failure => cases failure <;> simp [isBrokenAnswer, isBroken]

theorem isSome_held : (held s).isSome = s.1.session?.isSome :=
  Option.isSome_map

/-- Without a session there is a start that failed. -/
theorem Getting.failed {s t : Engine × Machine} {failure : Failure}
    (h : Getting s t (.error failure)) :
    t.1.session? = none ∧ ∃ reason, failure = notRestarted reason := by
  cases h with
  | refused reason _ hafter => exact ⟨hafter, reason, rfl⟩
  | unready reason _ _ hafter => exact ⟨hafter, reason, rfl⟩

/-- A session is held after a call exactly when the call was answered by a process that goes on. -/
theorem call_held (call : Call) :
    (call.perform.run s).state.1.session?.isSome ↔ (call.perform.run s).value = .ok () ∨
      ∃ message, (call.perform.run s).value = .error (.rejected message) := by
  rw [← isBrokenAnswer_eq_false_iff, ← isSome_held]
  rcases call_cases s call with ⟨failure, hsession, hvalue, hstate⟩ |
    ⟨u, -, hgoes, hheld, -⟩ | ⟨u, -, hbroken, hheld, -⟩
  · have hgetting := session_getting s
    rw [hsession] at hgetting
    obtain ⟨hnone, reason, rfl⟩ := hgetting.failed
    rw [hvalue, hstate, held, hnone]
    exact ⟨nofun, nofun⟩
  · rw [hgoes, hheld]
    exact ⟨fun _ ↦ rfl, fun _ ↦ rfl⟩
  · rw [hbroken, hheld]
    exact ⟨nofun, nofun⟩

/-- A start that fails makes the call fail, and leaves the engine without a session. -/
theorem call_unstarted (call : Call) (hnone : s.1.session? = none) {reason : String}
    (h : ((openSession s.1.node s.1.packages s.1.startupLimit).run s.2).value = .error reason) :
    (call.perform.run s).value = .error (notRestarted reason) ∧
      (call.perform.run s).state.1.session? = none := by
  obtain ⟨-, ⟨reason', hfailed, hsession, hengine⟩ | ⟨u, hopened, -⟩⟩ := session_opened s hnone
  · obtain rfl := Except.error.inj (hfailed.symm.trans h)
    rcases call_cases s call with ⟨failure, hfailure, hvalue, hstate⟩ | ⟨u, hu, -⟩ | ⟨u, hu, -⟩
    · obtain rfl := Except.error.inj (hfailure.symm.trans hsession)
      refine ⟨hvalue, ?_⟩
      rw [hstate, hengine, hnone]
    · exact nomatch hu.symm.trans hsession
    · exact nomatch hu.symm.trans hsession
  · exact nomatch hopened.symm.trans h

/-- Behind a restart there is a session, so nobody is ever told that the parser is not running. -/
theorem restart_held (h : (restart.run s).value = .ok ()) :
    (restart.run s).state.1.session?.isSome := by
  cases hcurrent : s.1.session? with
  | some u => simp [restart, hcurrent]
  | none =>
    cases hopening : ((openSession s.1.node s.1.packages s.1.startupLimit).run s.2).value with
    | error reason => simp [restart, hcurrent, onMachine, hopening] at h
    | ok u => simp [restart, hcurrent, onMachine, hopening, setSession]

theorem play_tries (round : Round) :
    Tries s.2 (round.play s).state.2 (if s.1.session?.isNone then 1 else 0) :=
  call_tries (round.enter s) round.call

/-- A call behind one that got ready starts nothing. -/
theorem play_prepared (h : (prepare.run s).value = .ok ()) (round : Round) :
    Tries (prepare.run s).state.2 (round.play (prepare.run s).state).state.2 0 := by
  have hheld : (prepare.run s).state.1.session?.isSome := (call_held s .prepare).mpr (.inl h)
  have htries := play_tries (prepare.run s).state round
  rwa [Option.isNone_eq_false_iff.mpr hheld] at htries

/-- So what a validation starts, it starts before the time is taken. -/
theorem validate_tries (limit? : Option Duration) (code : String) :
    Tries (prepare.run s).state.2 ((backend.validate limit? code).run s).state.2 0 := by
  cases hready : (prepare.run s).value with
  | error failure =>
    rw [(backend.run_validate_unready limit? code s hready).2]
    exact ⟨[], (List.append_nil _).symm, rfl⟩
  | ok =>
    rw [(backend.run_validate_ready limit? code s hready).2]
    exact play_prepared s hready ⟨(prepare.run s).state.2.exec, .parse code limit?⟩

end Calls

/-- The lives of harness processes, over every run of calls on an engine that has been set up and
whatever comes of each start and each request. At no moment is more than one process alive, between
calls it is that of the session, and none is when the engine is dropped. One start is tried exactly
by a call that finds no session, and none by a call behind one that got ready, so none while a
validation takes the time. A session is held after a call exactly when the call is accepted or
rejected. A start that fails makes its call fail, leaves no session and no process, and the next call
tries again; where none fails there is a session, so nobody is told that the parser is not
running. -/
theorem process_lifecycle {site : Site} {config : Config} {m : Machine} {engine : Engine}
    (hsetup : ((setup site config).run m).value = .ok engine) (before : List Round)
    (round : Round) :
    let s := round.enter (afterRounds (engine, ((setup site config).run m).state) before)
    let r := round.call.perform.run s
    Single m s.2 (held s).toList ∧
    Single m (stop.run s).state.2 [] ∧
    Tries s.2 r.state.2 (if s.1.session?.isNone then 1 else 0) ∧
    (r.state.1.session?.isSome ↔
      r.value = .ok () ∨ ∃ message, r.value = .error (.rejected message)) ∧
    (s.1.session? = none → ∀ reason,
      ((openSession s.1.node s.1.packages s.1.startupLimit).run s.2).value = .error reason →
      r.value = .error (notRestarted reason) ∧ r.state.1.session? = none ∧
        Single m r.state.2 [] ∧ ∀ next : Round, Tries r.state.2 (next.play r.state).state.2 1) ∧
    ((restart.run s).value = .ok () → (restart.run s).state.1.session?.isSome) ∧
    ((prepare.run s).value = .ok () → ∀ next : Round,
      Tries (prepare.run s).state.2 (next.play (prepare.run s).state).state.2 0) ∧
    ∀ limit? code,
      Tries (prepare.run s).state.2 ((backend.validate limit? code).run s).state.2 0 := by
  intro s r
  have htended : Tended m s := ((Tended.setup hsetup).rounds before).same rfl rfl
  have hstopped := htended.stop.single
  rw [(stop_run s).1] at hstopped
  refine ⟨htended.single, hstopped, call_tries s round.call, call_held s round.call, ?_,
    restart_held s, play_prepared s, validate_tries s⟩
  intro hnone reason hfailed
  obtain ⟨hvalue, hafter⟩ := call_unstarted s round.call hnone hfailed
  have hsingle := (htended.call round.call).single
  rw [held, hafter] at hsingle
  refine ⟨hvalue, hafter, hsingle, fun next ↦ ?_⟩
  have htries := play_tries r.state next
  rwa [Option.isNone_iff_eq_none.mpr hafter] at htries

/-- A machine whose processes answer, hang or end as the code demands. -/
def mixedMachine : Machine := .fresh "" (fun _ _ ↦ .ok (obedient mixed)) fun _ ↦ .zero

/-- A call on the machine when it starts these processes. -/
def served (call : Call) : Round := ⟨mixedMachine.exec, call⟩

/-- A call on the machine when it starts none. -/
def unserved (call : Call) : Round := ⟨fun _ _ ↦ .error .notPermitted, call⟩

/-- One process hangs and is ended, the next one cannot be started, and the one after it answers. -/
theorem process_lifecycle_refused :
    ∃ engine, ((setup bareSite bareConfig).run mixedMachine).value = .ok engine ∧
      let start := (engine, ((setup bareSite bareConfig).run mixedMachine).state)
      let s := (unserved .prepare).enter (afterRounds start [served (.parse "hang" (some .zero))])
      let r := prepare.run s
      s.1.session? = none ∧
      r.value = .error (notRestarted "failed to start /node: Permission denied (os error 13)") ∧
      Single mixedMachine r.state.2 [] ∧
      Tries r.state.2 ((served (.parse "pie" none)).play r.state).state.2 1 ∧
      ((served (.parse "pie" none)).play r.state).value = .ok () ∧
      ((served (.parse "pie" none)).play r.state).state.2.lives =
        [.started 0, .ended 0, .refused, .started 1] := by
  obtain ⟨hvalue, hstate⟩ := setup_bareSite mixedMachine (obedient mixed).reply rfl
  have hlifecycle :=
    process_lifecycle hvalue [served (.parse "hang" (some .zero))] (unserved .prepare)
  rw [hstate] at hlifecycle
  obtain ⟨-, -, -, -, hfailed, -⟩ := hlifecycle
  obtain ⟨-, -, hsingle, htries⟩ := hfailed (Option.isNone_iff_eq_none.mp (by decide +kernel)) _
    (openSession_refused _ _ _ rfl)
  refine ⟨_, hvalue, ?_⟩
  rw [hstate]
  refine ⟨Option.isNone_iff_eq_none.mp ?_, ?_, hsingle, htries _, ?_, ?_⟩
  · decide +kernel
  · decide +kernel
  · decide +kernel
  · decide +kernel

end FenceLint.Engine
