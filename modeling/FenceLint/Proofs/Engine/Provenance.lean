import FenceLint.Proofs.Engine.Step
import FenceLint.Proofs.Harness.Exchange

/-!
Where verdicts come from. Processes come and go while the engine works, and each one counts its
requests from zero, so a response is known by its number and the process that it comes from. Along
every run a code is judged by a response of the process that it was sent to, and no other request
that this process got has the number of the response.
-/

set_option autoImplicit false

namespace FenceLint

namespace Harness

/-- Waiting for a process to get ready reads a first part of what it writes. -/
theorem awaitReady_suffix (limit : Duration) (stance : Stance) (signals : List Signal) :
    (awaitReady limit stance signals).unread <:+ signals := by
  induction signals with
  | nil => exact List.suffix_rfl
  | cons signal rest ih =>
    have hrest : rest <:+ signal :: rest := List.suffix_cons signal rest
    rcases signal with text | _ | _ | _
    · rw [awaitReady]
      split
      · exact hrest
      · exact hrest
      · exact ih.trans hrest
    · exact hrest
    · exact hrest
    · exact List.suffix_rfl

/-- All that a process has written is what has been read of it, in order, and what is unread. -/
theorem Session.Continues.output {s t : Session} {history : List Exchange}
    (h : s.Continues history t) {greeting : List Signal}
    (hs : s.child.output = greeting ++ s.child.unread) :
    t.child.output = greeting ++ history.flatMap Exchange.read ++ t.child.unread := by
  obtain ⟨fresh, houtput, hread⟩ := h.signals
  rw [houtput, hs, List.append_assoc, hread, List.append_assoc]

end Harness

namespace Engine

open Harness

/-- A session as it is when its process has just got ready. -/
structure Opened (m : Machine) (limit : Duration) (s : Session) : Prop where
  /-- The process runs what the machine got for its launch. -/
  launched : ∃ launch, m.launches[s.number]? = some launch ∧
    m.exec launch s.number = .ok s.child.program
  ready : (awaitReady limit s.child.program.opening.stance s.child.program.opening.signals).answer =
    .ok s.version
  /-- Only the handshake has been read. -/
  child : s.child = { Child.start s.child.program with
    unread :=
      (awaitReady limit s.child.program.opening.stance s.child.program.opening.signals).unread }
  nextId : s.nextId = 0

/-- Later processes change nothing for one that has been started. -/
theorem Opened.mono {m m' : Machine} {limit : Duration} {s : Session} (h : Opened m limit s)
    (hexec : m'.exec = m.exec) (hlaunches : m.launches <+: m'.launches) : Opened m' limit s where
  launched := by
    obtain ⟨launch, hlaunch, hprogram⟩ := h.launched
    obtain ⟨more, hmore⟩ := hlaunches
    refine ⟨launch, ?_, hexec ▸ hprogram⟩
    rw [← hmore, List.getElem?_append_left (List.getElem?_eq_some_iff.mp hlaunch).1, hlaunch]
  ready := h.ready
  child := h.child
  nextId := h.nextId

/-- What a process has written before any request begins with what the handshake has read. -/
theorem Opened.output {m : Machine} {limit : Duration} {s : Session} (h : Opened m limit s) :
    ∃ greeting, s.child.output = greeting ++ s.child.unread := by
  obtain ⟨greeting, hgreeting⟩ := awaitReady_suffix limit s.child.program.opening.stance
    s.child.program.opening.signals
  refine ⟨greeting, ?_⟩
  have hheard : s.child.heard = [] := by rw [h.child]; rfl
  have hunread : s.child.unread = (awaitReady limit s.child.program.opening.stance
      s.child.program.opening.signals).unread := congrArg Child.unread h.child
  rw [Child.output, hheard, hunread, hgreeting, List.length_nil, List.range_zero,
    List.flatMap_nil, List.append_nil]

/-- A process that has just been started has the next number. -/
theorem openSession_opened {node packages : String} {limit : Duration} {m : Machine} {u : Session}
    (h : ((openSession node packages limit).run m).value = .ok u) :
    u.number = m.launches.length ∧
      Opened ((openSession node packages limit).run m).state limit u := by
  rcases openSession_cases node packages limit m with ⟨fault, -, hvalue, -⟩ |
    ⟨program, hexec, -, hexec', hlaunches, ⟨reason, -, hvalue⟩ | ⟨version, hready, hvalue⟩⟩
  · exact nomatch h.symm.trans hvalue
  · exact nomatch h.symm.trans hvalue
  · rw [Except.ok.inj (h.symm.trans hvalue)]
    refine ⟨rfl, ⟨⟨⟨node, packages, m.script⟩, ?_, ?_⟩, hready, rfl, rfl⟩⟩
    · rw [hlaunches, List.getElem?_concat_length]
    · rw [hexec']
      exact hexec

/-- Starting a process leaves all that was started before as it is. -/
theorem openSession_launches (node packages : String) (limit : Duration) (m : Machine) :
    ((openSession node packages limit).run m).state.exec = m.exec ∧
      m.launches <+: ((openSession node packages limit).run m).state.launches := by
  rcases openSession_cases node packages limit m with ⟨fault, -, -, hstate⟩ |
    ⟨program, -, -, hexec, hlaunches, -⟩
  · rw [hstate]
    exact ⟨rfl, List.prefix_rfl⟩
  · rw [hlaunches]
    exact ⟨hexec, List.prefix_append _ _⟩

/-- A call on the engine. -/
inductive Call
  | prepare
  | parse (code : String) (limit? : Option Duration)

/-- Makes a call. The time that the answer took is left out. -/
def Call.perform : Call → Work (Except Failure Unit)
  | .prepare => Engine.prepare
  | .parse code limit? => Prod.fst <$> Engine.parse code limit?

/-- The exchange that a call leads to, if there is a process to ask. -/
def exchange? (s : Engine × Machine) : Call → Option Exchange
  | .prepare => none
  | .parse code limit? =>
    match (session.run s).value with
    | .error _ => none
    | .ok u => some (u.exchange code limit?)

/-- The state after some calls. -/
def after (s : Engine × Machine) : List Call → Engine × Machine
  | [] => s
  | call :: rest => after (call.perform.run s).state rest

/-- The exchanges that some calls lead to, over all processes. -/
def exchanges (s : Engine × Machine) : List Call → List Exchange
  | [] => []
  | call :: rest => (exchange? s call).toList ++ exchanges (call.perform.run s).state rest

/-- The exchanges with one process. -/
def exchangesWith (process : Nat) (history : List Exchange) : List Exchange :=
  history.filter (·.process == process)

theorem exchangesWith_concat {process : Nat} {e : Exchange} (h : e.process = process)
    (history : List Exchange) :
    exchangesWith process (history ++ [e]) = exchangesWith process history ++ [e] := by
  simp [exchangesWith, h]

/-- What holds between calls: the exchanges so far account for the session that goes on. -/
structure Ledger (start : Engine × Machine) (history : List Exchange) (s : Engine × Machine) :
    Prop where
  limit : s.1.startupLimit = start.1.startupLimit
  exec : s.2.exec = start.2.exec
  known : ∀ e ∈ history, e.process < s.2.launches.length
  current : ∀ u, s.1.session? = some u → ∃ o, Opened s.2 s.1.startupLimit o ∧
    o.Continues (exchangesWith o.number history) u

namespace Ledger

variable {start s : Engine × Machine} {history : List Exchange}

/-- The ledger stands whatever is started, as long as there is no session. -/
theorem unoccupied (h : Ledger start history s) {m : Machine} (hexec : m.exec = s.2.exec)
    (hlaunches : s.2.launches <+: m.launches) :
    Ledger start history ({ s.1 with session? := none }, m) where
  limit := h.limit
  exec := hexec.trans h.exec
  known := by
    intro e he
    exact Nat.lt_of_lt_of_le (h.known e he) hlaunches.length_le
  current := nofun

/-- The ledger stands with a session whose process is new: no exchange so far is with it. -/
theorem occupied (h : Ledger start history s) {m : Machine} (hexec : m.exec = s.2.exec)
    (hlaunches : s.2.launches <+: m.launches) {u : Session}
    (hnumber : u.number = s.2.launches.length) (hopened : Opened m s.1.startupLimit u) :
    Ledger start history ({ s.1 with session? := some u }, m) where
  limit := h.limit
  exec := hexec.trans h.exec
  known := (h.unoccupied hexec hlaunches).known
  current := by
    intro u' hu'
    have hnone : exchangesWith u.number history = [] := by
      refine List.filter_eq_nil_iff.mpr fun e he hprocess ↦ ?_
      have hlt := h.known e he
      rw [eq_of_beq hprocess, hnumber] at hlt
      exact Nat.lt_irrefl _ hlt
    refine ⟨u, hopened, ?_⟩
    rw [hnone, ← Option.some.inj hu']
    exact .refl u

/-- Getting a session keeps the ledger, and the session that is got is the current one. -/
theorem session (h : Ledger start history s) :
    Ledger start history (session.run s).state ∧
      ∀ u, (Engine.session.run s).value = .ok u →
        (Engine.session.run s).state.1.session? = some u := by
  rcases hcurrent : s.1.session? with _ | u
  · obtain ⟨hexec, hlaunches⟩ := openSession_launches s.1.node s.1.packages s.1.startupLimit s.2
    obtain ⟨hmachine, hcases⟩ := session_opened s hcurrent
    rw [← hmachine] at hexec hlaunches
    rcases hcases with ⟨reason, -, hvalue, hengine⟩ | ⟨u, hopen, hvalue, hengine⟩
    · refine ⟨?_, fun u hu ↦ nomatch hu.symm.trans hvalue⟩
      have hnone : s.1 = { s.1 with session? := none } := by rw [← hcurrent]
      have := h.unoccupied hexec hlaunches
      rwa [← hnone, ← hengine] at this
    · obtain ⟨hnumber, hopened⟩ := openSession_opened hopen
      rw [← hmachine] at hopened
      have := h.occupied hexec hlaunches hnumber hopened
      rw [← hengine] at this
      refine ⟨this, fun u' hu' ↦ ?_⟩
      rw [Except.ok.inj (hu'.symm.trans hvalue), hengine]
  · obtain ⟨hvalue, hstate⟩ := session_kept s hcurrent
    refine ⟨hstate.symm ▸ h, fun u' hu' ↦ ?_⟩
    rw [hstate, hcurrent, Except.ok.inj (hvalue.symm.trans hu')]

/-- An exchange with the current session joins the ledger. -/
theorem asked (h : Ledger start history s) {u : Session} (hu : s.1.session? = some u)
    (code : String) (limit? : Option Duration) {m : Machine} (hexec : m.exec = s.2.exec)
    (hlaunches : m.launches = s.2.launches) (next? : Option Session)
    (hnext : ∀ t, next? = some t → t = (u.ask code limit?).session) :
    Ledger start (history ++ [u.exchange code limit?]) ({ s.1 with session? := next? }, m) := by
  obtain ⟨o, hopened, hcontinues⟩ := h.current u hu
  have hnumber : u.number = o.number := hcontinues.number
  refine ⟨h.limit, hexec.trans h.exec, ?_, ?_⟩
  · intro e he
    show e.process < m.launches.length
    rw [hlaunches]
    rcases List.mem_append.mp he with he | he
    · exact h.known e he
    · obtain ⟨launch, hlaunch, -⟩ := hopened.launched
      rw [List.mem_singleton.mp he]
      show u.number < s.2.launches.length
      rw [hnumber]
      exact (List.getElem?_eq_some_iff.mp hlaunch).1
  · intro t ht
    refine ⟨o, hopened.mono hexec (hlaunches ▸ List.prefix_rfl), ?_⟩
    rw [exchangesWith_concat hnumber, hnext t ht]
    exact hcontinues.ask code limit?

/-- One call keeps the ledger, with the exchange that it leads to. -/
theorem call (h : Ledger start history s) (call : Call) :
    Ledger start (history ++ (exchange? s call).toList) (call.perform.run s).state := by
  obtain ⟨hledger, hcurrent⟩ := h.session
  rcases call with _ | ⟨code, limit?⟩
  · rw [exchange?, Option.toList_none, List.append_nil]
    rw [Call.perform, (prepare_run s).1]
    exact hledger
  · rw [Call.perform, Act.run_map]
    rcases hsession : (Engine.session.run s).value with failure | u
    · have hnone : exchange? s (.parse code limit?) = none := by rw [exchange?, hsession]
      rw [hnone, Option.toList_none, List.append_nil, (parse_unasked s code limit? hsession).2]
      exact hledger
    · have hsome : exchange? s (.parse code limit?) = some (u.exchange code limit?) := by
        rw [exchange?, hsession]
      obtain ⟨-, hengine, -, hexec, hlaunches, -⟩ := parse_asked s code limit? hsession
      have hnext : ∀ t, (if isBrokenAnswer (u.ask code limit?).verdict then none
          else some (u.ask code limit?).session) = some t → t = (u.ask code limit?).session := by
        intro t ht
        split at ht
        · exact nomatch ht
        · exact (Option.some.inj ht).symm
      have := hledger.asked (hcurrent u hsession) code limit? hexec hlaunches _ hnext
      rw [← hengine] at this
      rw [hsome, Option.toList_some]
      exact this

/-- An engine that has been set up has asked nothing yet. -/
theorem setup {site : Site} {config : Config} {m : Machine} {engine : Engine}
    (h : ((Engine.setup site config).run m).value = .ok engine) :
    Ledger (engine, ((Engine.setup site config).run m).state) []
      (engine, ((Engine.setup site config).run m).state) := by
  obtain ⟨u, hsession, hopen, hstate⟩ := setup_ok h
  refine ⟨rfl, rfl, fun e he ↦ absurd he List.not_mem_nil, fun u' hu' ↦ ⟨u, ?_, ?_⟩⟩
  · rw [hstate]
    exact (openSession_opened hopen).2
  · rw [Option.some.inj (hu'.symm.trans hsession)]
    exact .refl u

/-- However many calls are made. -/
theorem run (h : Ledger start history s) (calls : List Call) :
    Ledger start (history ++ exchanges s calls) (after s calls) := by
  induction calls generalizing s history with
  | nil => simpa only [exchanges, after, List.append_nil] using h
  | cons call rest ih =>
    have := ih (h.call call)
    simpa only [exchanges, after, List.append_assoc] using this

end Ledger

section

/-- A folder that counts as an installed package. -/
def installed : Node := .folder [("package.json", .file (some "") false)]

/-- A site with Node.js and the packages at its root. -/
def bareSite : Site where
  disk := .unguarded
    (.folder [("node", .file (some "") true), ("mermaid", installed), ("jsdom", installed)]) []
  environment := []
  executable? := none
  runs _ _ := none

/-- The settings that point there. -/
def bareConfig : Config := ⟨some "/node", some "/", .ofMillis 1000⟩

theorem bareSite_node : bareSite.disk.isFile "/node" = true := by
  have : "node".utf8ByteSize = 4 := rfl
  have : "/node".utf8ByteSize = 5 := rfl
  simp [Disk.isFile, Disk.find, Disk.locate, Disk.partsOf, Disk.nodeAt, Disk.unguarded, bareSite,
    Path.parts, Disk.walk, Disk.origin, Path.isAbsolute, Node.descend, Node.child?, Node.entries,
    Disk.nameLimit, Disk.pathLimit, Text.pieces, bind, Except.bind, pure, Except.pure, *]

theorem bareSite_packages : hasPackages bareSite.disk "/" = true := by
  have : "mermaid".utf8ByteSize = 7 := rfl
  have : "jsdom".utf8ByteSize = 5 := rfl
  have : "package.json".utf8ByteSize = 12 := rfl
  have : "/mermaid/package.json".utf8ByteSize = 21 := rfl
  have : "/jsdom/package.json".utf8ByteSize = 19 := rfl
  simp [hasPackages, requiredPackages, Path.join, Path.endsWithSlash, Disk.isFile, Disk.find,
    Disk.locate, Disk.partsOf, Disk.nodeAt, Disk.unguarded, bareSite, Path.parts, Disk.walk,
    Disk.origin, Path.isAbsolute, Node.descend, Node.child?, Node.entries, Disk.nameLimit,
    Disk.pathLimit, Text.pieces, List.lookup_cons, installed, bind, Except.bind, pure, Except.pure,
    *]

/-- A process that gets ready at once and listens. -/
def readyProgram (reply : List String → Burst) : Program where
  opening := ⟨[.line "[true,null,null]"], .listening⟩
  reply := reply

/-- Such a process when its handshake has been read. -/
def readyChild (reply : List String → Burst) : Child :=
  { Child.start (readyProgram reply) with unread := [] }

/-- With such processes the engine can be set up where Node.js and the packages are at the root. -/
theorem setup_ready {site : Site} (hnode : site.disk.isFile "/node" = true)
    (hpackages : hasPackages site.disk "/" = true) (limit : Duration) (m : Machine)
    (reply : List String → Burst)
    (hexec : m.exec ⟨"/node", "/", m.script⟩ m.launches.length = .ok (readyProgram reply)) :
    let r := (setup site ⟨some "/node", some "/", limit⟩).run m
    r.value = .ok ⟨"/node", "/", limit, "unknown",
      some ⟨m.launches.length, readyChild reply, 0, "unknown"⟩⟩ ∧
    r.state = { m with
      launches := m.launches ++ [⟨"/node", "/", m.script⟩]
      lives := m.lives ++ [Life.started m.launches.length] } := by
  have hready : Handshake.decode? "[true,null,null]" = some ⟨true, none, none⟩ := by
    decide +kernel
  simp [setup, locateNode, hnode, locatePackages, Strategy.usual, tryEach, Strategy.resolve,
    Strategy.candidates, hpackages, openSession, hexec, Child.start, awaitReady, readyProgram,
    hready, Waited.stop, readyChild]

/-- And so it can on the bare site. -/
theorem setup_bareSite (m : Machine) (reply : List String → Burst)
    (hexec : m.exec ⟨"/node", "/", m.script⟩ m.launches.length = .ok (readyProgram reply)) :
    ((setup bareSite bareConfig).run m).value = .ok ⟨"/node", "/", .ofMillis 1000, "unknown",
      some ⟨m.launches.length, readyChild reply, 0, "unknown"⟩⟩ ∧
    ((setup bareSite bareConfig).run m).state = { m with
      launches := m.launches ++ [⟨"/node", "/", m.script⟩]
      lives := m.lives ++ [Life.started m.launches.length] } :=
  setup_ready bareSite_node bareSite_packages (.ofMillis 1000) m reply hexec

end

end Engine

end FenceLint
