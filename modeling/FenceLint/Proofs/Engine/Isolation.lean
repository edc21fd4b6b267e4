import FenceLint.Proofs.Backend
import FenceLint.Proofs.Engine.Provenance
import FenceLint.Proofs.Json.RoundTrip

/-!
Blocks do not affect one another. Where every process treats a code as a function of the code alone
says, validating a list of codes in order gives what the function says of each one, however many
processes hang or go away on the way.
-/

set_option autoImplicit false

namespace FenceLint

namespace Harness

/-- Output that is no response to anything. -/
def IsNoise (signal : Signal) : Prop :=
  ∃ text, signal = .line text ∧ Response.decode? text = none

/-- How a process treats a request. -/
inductive Conduct
  | accepts
  | rejects (message : String)
  /-- It stays silent until it is ended. -/
  | hangs
  /-- It ends without an answer. -/
  | quits
  deriving DecidableEq, Repr

namespace Conduct

/-- What becomes of the request within a limit. -/
def answer (limit : Duration) : Conduct → Except Failure Unit
  | accepts => .ok ()
  | rejects message => .error (.rejected message)
  | hangs => .error (.expired limit)
  | quits => .error gone

/-- Whether the process is of no use afterwards. -/
def breaks : Conduct → Bool
  | accepts => false
  | rejects _ => false
  | hangs => true
  | quits => true

/-- What is reported of the code. -/
def reason? (limit : Duration) (c : Conduct) : Option Reason := Backend.reasonOf (c.answer limit)

/-- The treatment that a response tells of. -/
def ofResponse (r : Response) : Conduct :=
  if r.valid then accepts else rejects (r.error?.getD "")

/-- A burst that treats the request with a number in some way, among any amount of noise. -/
inductive Shows (id : Nat) : Conduct → Burst → Prop
  | answers (before : List Signal) (text : String) (r : Response) (after : List Signal)
      (hbefore : ∀ signal ∈ before, IsNoise signal) (hafter : ∀ signal ∈ after, IsNoise signal)
      (hdecode : Response.decode? text = some r) (hid : r.id = id) :
      Shows id (ofResponse r) ⟨before ++ .line text :: after, .listening⟩
  | hangs (signals : List Signal) (stance : Stance)
      (hquiet : ∀ signal ∈ signals, IsNoise signal ∨ signal = .lull) (hstance : stance ≠ .ended) :
      Shows id .hangs ⟨signals, stance⟩
  | quits (signals : List Signal) (hnoise : ∀ signal ∈ signals, IsNoise signal) :
      Shows id .quits ⟨signals, .ended⟩

theorem answer_ofResponse (limit : Duration) (r : Response) :
    (ofResponse r).answer limit = r.outcome := by
  by_cases h : r.valid
  · rw [ofResponse, Response.outcome, if_pos h, if_pos h]
    rfl
  · rw [ofResponse, Response.outcome, if_neg h, if_neg h]
    rfl

end Conduct

/-- A program that completes its handshake and then treats every request as its code demands. There
are only so many numbers that a response can carry. -/
structure Program.Serves (program : Program) (startupLimit : Duration) (f : String → Conduct) :
    Prop where
  ready : ∃ version,
    (awaitReady startupLimit program.opening.stance program.opening.signals).answer = .ok version
  noise : ∀ signal ∈
    (awaitReady startupLimit program.opening.stance program.opening.signals).unread, IsNoise signal
  listening : program.opening.stance = .listening
  treats : ∀ (heard : List String) (id : Nat) (code : String), id < Decimal.wordBound →
    (f code).Shows id (program.reply (heard ++ [requestLine id code]))

section

variable (id : Nat) (stance : Stance) {noise : List Signal}

/-- A wait passes over noise. -/
theorem awaitAnswer_noise (limit? : Option Duration) (h : ∀ signal ∈ noise, IsNoise signal)
    (rest : List Signal) :
    (awaitAnswer id limit? stance (noise ++ rest)).answer =
        (awaitAnswer id limit? stance rest).answer ∧
      (awaitAnswer id limit? stance (noise ++ rest)).unread =
        (awaitAnswer id limit? stance rest).unread := by
  refine awaitAnswer_passes stance ?_ rest
  intro signal hsignal
  obtain ⟨text, rfl, hdecode⟩ := h signal hsignal
  intro r hr
  rw [hdecode] at hr
  exact nomatch hr

/-- A wait with a limit runs out of time on a process that writes nothing but noise and does not
end. -/
theorem awaitAnswer_quiet (limit : Duration) (hstance : stance ≠ .ended)
    (h : ∀ signal ∈ noise, IsNoise signal ∨ signal = .lull) :
    (awaitAnswer id (some limit) stance noise).answer = some (.error (.expired limit)) := by
  induction noise with
  | nil =>
    rw [awaitAnswer, atLast, if_neg hstance]
    rfl
  | cons signal noise ih =>
    obtain ⟨⟨text, rfl, hdecode⟩ | rfl, htail⟩ := List.forall_mem_cons.mp h
    · rw [awaitAnswer, hdecode]
      exact ih htail
    · rfl

end

/-- A session whose process waits for a request, with nothing but noise unread. -/
structure Session.Calm (f : String → Conduct) (s : Session) : Prop where
  listening : s.child.stance = .listening
  noise : ∀ signal ∈ s.child.unread, IsNoise signal
  treats : ∀ (heard : List String) (id : Nat) (code : String), id < Decimal.wordBound →
    (f code).Shows id (s.child.program.reply (heard ++ [requestLine id code]))

namespace Session.Calm

variable {f : String → Conduct} {s : Session}

/-- A calm session gives the answer that the code demands, and it stays calm unless the process is
of no use then. -/
theorem ask (h : s.Calm f) (hid : s.nextId < Decimal.wordBound) (code : String)
    (limit : Duration) :
    (s.ask code (some limit)).answer = some ((f code).answer limit) ∧
      ((f code).breaks = false → (s.ask code (some limit)).session.Calm f) := by
  let line := requestLine s.nextId code
  let burst := s.child.program.reply (s.child.heard ++ [line])
  have hsent : s.child.send line = .ok { s.child with
      heard := s.child.heard ++ [line]
      unread := s.child.unread ++ burst.signals
      stance := burst.stance } := by
    rw [Child.send, h.listening]
  have hshows : (f code).Shows s.nextId burst := h.treats s.child.heard s.nextId code hid
  have hwait := awaitAnswer_noise s.nextId burst.stance (some limit) h.noise burst.signals
  have hanswer : (s.ask code (some limit)).answer =
      (awaitAnswer s.nextId (some limit) burst.stance burst.signals).answer := by
    rw [ask_awaited hsent]
    exact hwait.1
  have hcalm (hstance : burst.stance = .listening) (hunread : ∀ signal ∈
      (awaitAnswer s.nextId (some limit) burst.stance burst.signals).unread, IsNoise signal) :
      (s.ask code (some limit)).session.Calm f := by
    rw [ask_awaited hsent]
    refine ⟨hstance, ?_, h.treats⟩
    show ∀ signal ∈ (awaitAnswer s.nextId (some limit) burst.stance
      (s.child.unread ++ burst.signals)).unread, IsNoise signal
    rw [hwait.2]
    exact hunread
  rw [hanswer]
  generalize hburst : burst = b at hshows hcalm
  generalize hconduct : f code = c at hshows
  rcases hshows with ⟨before, text, r, after, hbefore, hafter, hdecode, hr⟩ |
    ⟨signals, stance, hquiet, hstance⟩ | ⟨signals, hnoise⟩
  · have hread : awaitAnswer s.nextId (some limit) .listening (.line text :: after) =
        .stop (some r.outcome) after [item .trace "Harness response"
          [("id", .count s.nextId), ("valid", .flag r.valid)]] := by
      rw [awaitAnswer, hdecode]
      exact if_pos hr
    have hskip := awaitAnswer_noise s.nextId .listening (some limit) hbefore (.line text :: after)
    constructor
    · rw [hskip.1, hread, Conduct.answer_ofResponse]
      rfl
    · intro _
      apply hcalm rfl
      rw [hskip.2, hread]
      exact hafter
  · refine ⟨awaitAnswer_quiet _ _ limit hstance hquiet, fun hbreaks ↦ ?_⟩
    exact absurd hbreaks.symm Bool.false_ne_true
  · refine ⟨?_, fun hbreaks ↦ absurd hbreaks.symm Bool.false_ne_true⟩
    have := (awaitAnswer_noise s.nextId .ended (some limit) hnoise []).1
    rwa [List.append_nil] at this

end Session.Calm

end Harness

namespace Engine

open Harness

/-- A code whose parser is ready is validated by one call. -/
theorem validate_asked (s : Engine × Machine) {u : Session} (h : (session.run s).value = .ok u)
    (limit? : Option Duration) (code : String) :
    ((backend.validate limit? code).run s).value.reason? =
        Backend.reasonOf ((parse code limit?).run (session.run s).state).value.1 ∧
      ((backend.validate limit? code).run s).state =
        ((parse code limit?).run (session.run s).state).state := by
  obtain ⟨hstate, hvalue⟩ := prepare_run s
  rw [h] at hvalue
  simp [Backend.validate, backend, hstate, hvalue, Except.map, Backend.verdict_reason]

theorem isBrokenAnswer_answer (limit : Duration) (c : Conduct) :
    isBrokenAnswer (c.answer limit) = c.breaks := by
  rcases c with _ | message | _ | _ <;> rfl

/-- A process that serves can be started, and its session is calm. -/
theorem openSession_serves {node packages : String} {limit : Duration} {m : Machine}
    {f : String → Conduct} {program : Program}
    (hprogram : m.exec ⟨node, packages, m.script⟩ m.launches.length = .ok program)
    (hserves : program.Serves limit f) :
    let r := (openSession node packages limit).run m
    ∃ u, r.value = .ok u ∧ u.Calm f ∧ u.nextId = 0 ∧ r.state.script = m.script ∧
      r.state.exec = m.exec ∧ r.state.launches.length = m.launches.length + 1 := by
  intro r
  obtain ⟨version, hready⟩ := hserves.ready
  rcases openSession_cases node packages limit m with
    ⟨fault, hexec, -⟩ | ⟨program', hexec, hscript, hsame, hlaunches, hopening⟩
  · exact nomatch hexec.symm.trans hprogram
  · obtain rfl := Except.ok.inj (hexec.symm.trans hprogram)
    rcases hopening with ⟨reason, hunready, -⟩ | ⟨version', -, hvalue⟩
    · exact nomatch hready.symm.trans hunready
    · refine ⟨_, hvalue, ⟨hserves.listening, hserves.noise, hserves.treats⟩, rfl, hscript, hsame,
        ?_⟩
      show ((openSession node packages limit).run m).state.launches.length = _
      rw [hlaunches, List.length_append, List.length_singleton]

/-- An engine in good order before the code with a number: its processes serve, and the one that
runs, if there is one, is calm and has room for the number. -/
structure Standby (f : String → Conduct) (asked : Nat) (s : Engine × Machine) : Prop where
  serves : ∀ n, ∃ program, s.2.exec ⟨s.1.node, s.1.packages, s.2.script⟩ n = .ok program ∧
    program.Serves s.1.startupLimit f
  calm : ∀ u, s.1.session? = some u → u.Calm f ∧ u.nextId ≤ asked

namespace Standby

variable {f : String → Conduct} {asked : Nat} {s : Engine × Machine}

/-- The processes that are still to be started. -/
def missing (s : Engine × Machine) : Nat := if s.1.session?.isSome then 0 else 1

/-- An engine in good order gets a session, and starts a process for it if none runs. -/
theorem session (h : Standby f asked s) :
    ∃ u, (Engine.session.run s).value = .ok u ∧
      (Engine.session.run s).state.1.session? = some u ∧
      Standby f asked (Engine.session.run s).state ∧
      (Engine.session.run s).state.2.launches.length = s.2.launches.length + missing s := by
  rcases hcurrent : s.1.session? with _ | u
  · obtain ⟨hmachine, hcases⟩ := session_opened s hcurrent
    obtain ⟨program, hprogram, hserves⟩ := h.serves s.2.launches.length
    obtain ⟨u, hopened, hcalm, hid, hscript, hsame, hlaunches⟩ :=
      openSession_serves hprogram hserves
    rcases hcases with ⟨reason, hfailed, -⟩ | ⟨u', hopened', hvalue, hengine⟩
    · exact nomatch hopened.symm.trans hfailed
    obtain rfl := Except.ok.inj (hopened.symm.trans hopened')
    refine ⟨u, hvalue, by rw [hengine], ⟨?_, ?_⟩, ?_⟩
    · rw [hmachine, hengine, hscript, hsame]
      exact h.serves
    · rw [hengine]
      intro u' hu'
      rw [← Option.some.inj hu', hid]
      exact ⟨hcalm, Nat.zero_le asked⟩
    · rw [hmachine, hlaunches, missing, hcurrent]
      rfl
  · obtain ⟨hvalue, hstate⟩ := session_kept s hcurrent
    refine ⟨u, hvalue, ?_, ?_, ?_⟩
    · rw [hstate, hcurrent]
    · rw [hstate]
      exact h
    · rw [hstate, missing, hcurrent]
      rfl

/-- Validating one code gives what it demands, leaves the engine in good order, and leaves a process
to be started just when the code breaks one. -/
theorem validate (h : Standby f asked s) (hasked : asked < Decimal.wordBound) (limit : Duration)
    (code : String) :
    let r := (backend.validate (some limit) code).run s
    r.value.reason? = (f code).reason? limit ∧ Standby f (asked + 1) r.state ∧
      missing r.state = (if (f code).breaks then 1 else 0) ∧
      r.state.2.launches.length = s.2.launches.length + missing s := by
  intro r
  obtain ⟨u, hvalue, hcurrent, hstandby, hlaunches⟩ := h.session
  obtain ⟨hcalm, hid⟩ := hstandby.calm u hcurrent
  obtain ⟨hreason, hstate⟩ := validate_asked s hvalue (some limit) code
  -- Making ready has got the session, so asking gets the same one again.
  obtain ⟨hagain, hkept⟩ := session_kept _ hcurrent
  obtain ⟨hanswer, hengine, hscript, hsame, hcount, -⟩ := parse_asked _ code (some limit) hagain
  rw [hkept] at hengine hscript hsame hcount
  obtain ⟨hask, hafter⟩ := hcalm.ask (Nat.lt_of_le_of_lt hid hasked) code limit
  have hverdict : (u.ask code (some limit)).verdict = (f code).answer limit := by
    rw [Session.Asked.verdict, hask]
    rfl
  rw [hverdict, isBrokenAnswer_answer] at hengine
  refine ⟨?_, ⟨?_, ?_⟩, ?_, ?_⟩
  · rw [hreason, hanswer, hverdict]
    rfl
  · rw [hstate, hengine, hscript, hsame]
    exact hstandby.serves
  · rw [hstate, hengine]
    intro u' hu'
    rcases hbreaks : (f code).breaks
    · rw [hbreaks] at hu'
      obtain rfl := Option.some.inj hu'
      refine ⟨hafter hbreaks, ?_⟩
      rw [Session.ask_nextId]
      exact Nat.succ_le_succ hid
    · rw [hbreaks] at hu'
      cases hu'
  · rw [hstate, missing, hengine]
    rcases (f code).breaks <;> rfl
  · rw [hstate, hcount, hlaunches]

/-- The processes that some codes lead to, one for the first code if it is missing and one for each
code after a code that breaks one. -/
def starts (f : String → Conduct) : Nat → List String → Nat
  | _, [] => 0
  | missing, code :: rest => missing + starts f (if (f code).breaks then 1 else 0) rest

theorem starts_cons (f : String → Conduct) (missing : Nat) (code : String) (rest : List String) :
    starts f missing (code :: rest) =
      missing + (code :: rest).dropLast.countP fun c ↦ (f c).breaks := by
  induction rest generalizing missing code with
  | nil => rfl
  | cons next rest ih =>
    rw [starts, ih, List.dropLast_cons_cons, List.countP_cons, Nat.add_comm (List.countP _ _)]

/-- Validating codes in order gives what each one demands. -/
theorem run (h : Standby f asked s) (limit : Duration) (codes : List String)
    (hcodes : asked + codes.length ≤ Decimal.wordBound) :
    let r := (codes.mapM (backend.validate (some limit))).run s
    r.value.map Verdict.reason? = codes.map (fun code ↦ (f code).reason? limit) ∧
      r.state.2.launches.length = s.2.launches.length + starts f (missing s) codes := by
  induction codes generalizing asked s with
  | nil => exact ⟨rfl, rfl⟩
  | cons code rest ih =>
    have hasked : asked < Decimal.wordBound := by
      rw [List.length_cons] at hcodes
      omega
    obtain ⟨hreason, hstandby, hmissing, hlaunches⟩ := h.validate hasked limit code
    obtain ⟨hrest, hcount⟩ := ih hstandby (by rw [List.length_cons] at hcodes; omega)
    rw [List.mapM_cons]
    simp only [Act.run_bind, Act.run_pure]
    constructor
    · rw [List.map_cons, List.map_cons, hreason, hrest]
    · rw [hcount, hlaunches, hmissing, starts, Nat.add_assoc]

end Standby

/-- An engine whose processes serve is in good order once it has been set up. -/
theorem Standby.setup {site : Site} {config : Config} {m : Machine} {engine : Engine}
    {f : String → Conduct} (hsetup : ((Engine.setup site config).run m).value = .ok engine)
    (hserves : ∀ n, ∃ program, m.exec ⟨engine.node, engine.packages, m.script⟩ n = .ok program ∧
      program.Serves engine.startupLimit f) :
    Standby f 0 (engine, ((Engine.setup site config).run m).state) ∧
      missing (engine, ((Engine.setup site config).run m).state) = 0 ∧
      ((Engine.setup site config).run m).state.launches.length = m.launches.length + 1 := by
  obtain ⟨u, hsession, hopen, hstate⟩ := setup_ok hsetup
  obtain ⟨program, hprogram, hserving⟩ := hserves m.launches.length
  obtain ⟨u', hopen', hcalm, hid, hscript, hsame, hlaunches⟩ :=
    openSession_serves hprogram hserving
  obtain rfl := Except.ok.inj (hopen.symm.trans hopen')
  rw [hstate]
  refine ⟨⟨?_, ?_⟩, ?_, hlaunches⟩
  · rw [hscript, hsame]
    exact hserves
  · intro u' hu'
    rw [← Option.some.inj (hsession.symm.trans hu'), hid]
    exact ⟨hcalm, Nat.le_refl 0⟩
  · rw [missing, hsession]
    rfl

/-- Whatever hangs or goes away on the way, each code gets the verdict that it demands, as long as
there are numbers for the codes; so codes that are arranged anew or repeated have their verdicts
arranged or repeated alike. Besides the first process there is one for each code that breaks one,
unless no code comes after it. -/
theorem validate_isolated {site : Site} {config : Config} {m : Machine} {engine : Engine}
    {f : String → Conduct} (hsetup : ((setup site config).run m).value = .ok engine)
    (hserves : ∀ n, ∃ program, m.exec ⟨engine.node, engine.packages, m.script⟩ n = .ok program ∧
      program.Serves engine.startupLimit f)
    (limit : Duration) (codes : List String) (hcodes : codes.length ≤ Decimal.wordBound) :
    let run (codes : List String) := (codes.mapM (backend.validate (some limit))).run
      (engine, ((setup site config).run m).state)
    let reasons (codes : List String) := (run codes).value.map Verdict.reason?
    reasons codes = codes.map (fun code ↦ (f code).reason? limit) ∧
    (∀ positions : List (Fin codes.length), positions.length ≤ Decimal.wordBound →
      (reasons (positions.map codes.get)).map some =
        positions.map fun i ↦ (reasons codes)[i.val]?) ∧
    (run codes).state.2.launches.length =
      m.launches.length + 1 + codes.dropLast.countP fun code ↦ (f code).breaks := by
  intro run reasons
  obtain ⟨hstandby, hmissing, hfirst⟩ := Standby.setup hsetup hserves
  have hreasons (codes : List String) (hcodes : codes.length ≤ Decimal.wordBound) :
      reasons codes = codes.map fun code ↦ (f code).reason? limit :=
    (hstandby.run limit codes (by rwa [Nat.zero_add])).1
  refine ⟨hreasons codes hcodes, ?_, ?_⟩
  · intro positions hpositions
    rw [hreasons codes hcodes, hreasons _ (by rwa [List.length_map]), List.map_map, List.map_map]
    apply List.map_congr_left
    intro i _
    rw [List.getElem?_map, List.getElem?_eq_getElem i.isLt]
    rfl
  · have hcount := (hstandby.run limit codes (by rwa [Nat.zero_add])).2
    rcases codes with _ | ⟨code, rest⟩
    · exact hcount.trans hfirst
    · refine hcount.trans ?_
      rw [Standby.starts_cons, hmissing, Nat.zero_add, hfirst]

section

/-- The number and the code of a request. -/
def request? (line : String) : Option (Nat × String) :=
  match Json.parse? line with
  | some (.object [(_, .number id), (_, .string (some code))]) => some (id.whole, code)
  | _ => none

theorem request?_requestLine (id : Nat) (code : String) :
    request? (requestLine id code) = some (id, code) := by
  rw [request?, requestLine, Json.parse?_compact]
  rfl

/-- The line of a response. -/
def responseLine (id : Nat) (valid : Bool) (message : String) : String :=
  (Json.array [.nat id, .bool valid, .text message]).compact

theorem decode?_responseLine {id : Nat} (hid : id < Decimal.wordBound) (valid : Bool)
    (message : String) :
    Response.decode? (responseLine id valid message) = some ⟨id, valid, some message⟩ := by
  rw [Response.decode?, responseLine, Json.parse?_compact]
  simp [Response.ofJson?, fields?, Json.nat, Json.text, identifier?, hid, bool?, text?]

/-- A burst that treats the request with a number in a given way. -/
def burstOf (id : Nat) : Conduct → Burst
  | .accepts => ⟨[.line (responseLine id true "")], .listening⟩
  | .rejects message => ⟨[.line (responseLine id false message)], .listening⟩
  | .hangs => ⟨[], .silent⟩
  | .quits => ⟨[], .ended⟩

theorem shows_burstOf {id : Nat} (hid : id < Decimal.wordBound) (c : Conduct) :
    c.Shows id (burstOf id c) := by
  have none_noisy : ∀ signal ∈ ([] : List Signal), IsNoise signal := by
    intro signal hsignal
    exact absurd hsignal List.not_mem_nil
  rcases c with _ | message | _ | _
  · exact .answers [] _ ⟨id, true, some ""⟩ [] none_noisy none_noisy
      (decode?_responseLine hid true "") rfl
  · exact .answers [] _ ⟨id, false, some message⟩ [] none_noisy none_noisy
      (decode?_responseLine hid false message) rfl
  · exact .hangs [] .silent (fun signal hsignal ↦ absurd hsignal List.not_mem_nil) nofun
  · exact .quits [] none_noisy

/-- A program that reads each request and treats it as its code demands. -/
def obedient (f : String → Conduct) : Program :=
  readyProgram fun heard ↦
    match request? (heard.getLastD "") with
    | some (id, code) => burstOf id (f code)
    | none => ⟨[], .ended⟩

/-- Every treatment of codes can be served. -/
theorem obedient_serves (f : String → Conduct) (startupLimit : Duration) :
    (obedient f).Serves startupLimit f := by
  have hready : awaitReady startupLimit .listening [.line "[true,null,null]"] =
      .stop (.ok "unknown") []
        [item .debug "Harness ready" [("version", .shown "unknown")]] := by
    have hdecode : Handshake.decode? "[true,null,null]" = some ⟨true, none, none⟩ := by
      decide +kernel
    rw [awaitReady, hdecode]
    rfl
  constructor
  · exact ⟨"unknown", congrArg Waited.answer hready⟩
  · show ∀ signal ∈ (awaitReady startupLimit .listening [.line "[true,null,null]"]).unread, _
    rw [hready]
    intro signal hsignal
    exact absurd hsignal List.not_mem_nil
  · rfl
  · intro heard id code hid
    show (f code).Shows id (match request? ((heard ++ [requestLine id code]).getLastD "") with
      | some (id, code) => burstOf id (f code)
      | none => ⟨[], .ended⟩)
    rw [List.getLastD_concat, request?_requestLine]
    exact shows_burstOf hid (f code)

/-- A treatment with something of each kind. -/
def mixed : String → Conduct
  | "hang" => .hangs
  | "quit" => .quits
  | "flow" => .rejects "unknown diagram"
  | _ => .accepts

/-- Two of four codes break a process, and one of these is the last. -/
theorem validate_isolated_mixed :
    let m := Machine.fresh "" (fun _ _ ↦ .ok (obedient mixed)) fun _ ↦ .zero
    ∃ engine, ((setup bareSite bareConfig).run m).value = .ok engine ∧
      let r := (["flow", "hang", "pie", "quit"].mapM (backend.validate (some .zero))).run
        (engine, ((setup bareSite bareConfig).run m).state)
      r.value.map (fun v ↦ v.reason?.map Reason.text) =
        [some "unknown diagram", some "validation timed out after 0ms", none,
          some "parser failed: parser process exited"] ∧
      r.state.2.launches.length = 2 := by
  intro m
  obtain ⟨hvalue, -⟩ := setup_bareSite m (obedient mixed).reply rfl
  obtain ⟨hreasons, -, hcount⟩ := validate_isolated hvalue
    (fun n ↦ ⟨obedient mixed, rfl, obedient_serves mixed _⟩) .zero ["flow", "hang", "pie", "quit"]
    (by decide)
  refine ⟨_, hvalue, ?_, hcount⟩
  have htexts := congrArg (List.map (Option.map Reason.text)) hreasons
  rw [List.map_map] at htexts
  exact htexts.trans (by decide +kernel)

end

end Engine

end FenceLint
