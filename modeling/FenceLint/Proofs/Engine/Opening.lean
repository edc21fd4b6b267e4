import FenceLint.Proofs.Engine.Provenance
import FenceLint.Proofs.Harness.Handshake

/-!
Setting up the engine. Once Node.js and the packages are found, all depends on what the new process
says first: the first signal that is not idle makes the engine, or the error of its setup
(`setup_opening`). What stands behind that signal is there to be read when requests are answered.
-/

set_option autoImplicit false

namespace FenceLint.Engine

open Harness

section

variable {site : Site} {config : Config} {m : Machine} {node packages : String} {program : Program}

/-- With Node.js, the packages and a process, setting up comes to what the handshake comes to. -/
theorem setup_opening (hnode : locateNode site config.node? = .ok node)
    (hpackages : ((locatePackages site (Strategy.usual config.packages?)).run m).value =
      .ok packages)
    (hexec : m.exec ⟨node, packages, m.script⟩ m.launches.length = .ok program) :
    let w := awaitReady config.startupLimit program.opening.stance program.opening.signals
    (∀ reason, w.answer = .error reason →
      ((setup site config).run m).value = .error (.setup reason)) ∧
    ∀ version, w.answer = .ok version →
      ((setup site config).run m).value = .ok ⟨node, packages, config.startupLimit, version,
        some ⟨m.launches.length, { Child.start program with unread := w.unread }, 0, version⟩⟩ := by
  intro w
  have hstate : ((locatePackages site (Strategy.usual config.packages?)).run m).state = m :=
    tryEach_state site _ _ m
  constructor
  · intro reason hanswer
    simp [setup, hnode, hpackages, hstate, openSession, hexec, Child.start, hanswer, w]
  · intro version hanswer
    simp [setup, hnode, hpackages, hstate, openSession, hexec, Child.start, hanswer, w]

end

/-- How an engine that a handshake has made stands: it has the version of the handshake, no request
has been made, and whatever the process writes from now on comes behind the signals that the
handshake has left. -/
structure Opening (left : List Signal) (version : String) (engine : Engine) (u : Session) :
    Prop where
  version : engine.version = version
  session : engine.session? = some u
  nextId : u.nextId = 0
  unread : u.child.unread = left
  first (code : String) (limit? : Option Duration) (child : Child)
    (hsent : u.child.send (requestLine 0 code) = .ok child) :
    ∃ fresh, child.output = u.child.output ++ fresh ∧ child.unread = left ++ fresh ∧
      (u.ask code limit?).answer = (awaitAnswer 0 limit? child.stance (left ++ fresh)).answer

/-- The handshake is decided by the first signal that is not idle: a fatal reason, even from a
process that calls itself ready, is the error of the setup; a process that is ready makes the
engine; and so do, as errors, the limit, a line that is no text and the end of the stream. What
stands before that signal changes nothing, and what stands behind it is left for the requests. Idle
are all lines that are not JSON or whose JSON is beside the matter. Nothing keeps the engine from
being set up but errors of setup. -/
theorem opening_decided :
    (∀ (limit : Duration) (stance : Stance) (signals left : List Signal)
        (answer : Except String String),
      ((awaitReady limit stance signals).answer = answer ∧
          (awaitReady limit stance signals).unread = left) ↔
        ∃ passed last, signals = passed ++ (last ++ left) ∧
          (∀ signal ∈ passed, Idle signal) ∧ Settles limit stance last left answer) ∧
    (∀ (limit : Duration) (stance : Stance) (front noise rest : List Signal),
      (∀ signal ∈ front, Idle signal) → (∀ signal ∈ noise, Idle signal) →
      (awaitReady limit stance (front ++ noise ++ rest)).answer =
          (awaitReady limit stance (front ++ rest)).answer ∧
        (awaitReady limit stance (front ++ noise ++ rest)).unread =
          (awaitReady limit stance (front ++ rest)).unread) ∧
    (∀ text, (∀ v, Json.parse? text = some v → Beside v) → Idle (.line text)) ∧
    ∀ (site : Site) (config : Config) (m : Machine),
      (∀ e, ((setup site config).run m).value = .error e → ∃ message, e = .setup message) ∧
      ∀ node packages program, locateNode site config.node? = .ok node →
        ((locatePackages site (Strategy.usual config.packages?)).run m).value = .ok packages →
        m.exec ⟨node, packages, m.script⟩ m.launches.length = .ok program →
        ∀ passed last left answer, program.opening.signals = passed ++ (last ++ left) →
          (∀ signal ∈ passed, Idle signal) →
          Settles config.startupLimit program.opening.stance last left answer →
          (∀ reason, answer = .error reason →
            ((setup site config).run m).value = .error (.setup reason)) ∧
          ∀ version, answer = .ok version → ∃ engine u,
            ((setup site config).run m).value = .ok engine ∧ Opening left version engine u := by
  refine ⟨awaitReady_iff, ?_, fun text ↦ idle_of_beside, ?_⟩
  · intro limit stance front noise rest hfront hnoise
    have hboth : ∀ signal ∈ front ++ noise, Idle signal :=
      List.forall_mem_append.mpr ⟨hfront, hnoise⟩
    obtain ⟨hanswer, hunread⟩ := awaitReady_append limit stance hboth rest
    obtain ⟨hanswer', hunread'⟩ := awaitReady_append limit stance hfront rest
    exact ⟨hanswer.trans hanswer'.symm, hunread.trans hunread'.symm⟩
  · intro site config m
    refine ⟨fun e ↦ setup_error, ?_⟩
    intro node packages program hnode hpackages hexec passed last left answer hsignals hpassed
      hsettles
    obtain ⟨hanswer, hleft⟩ := (awaitReady_iff config.startupLimit program.opening.stance _ left
      answer).mpr ⟨passed, last, hsignals, hpassed, hsettles⟩
    obtain ⟨hfailed, hready⟩ := setup_opening hnode hpackages hexec
    constructor
    · rintro reason rfl
      exact hfailed reason hanswer
    · rintro version rfl
      refine ⟨_, _, hready version hanswer, rfl, rfl, rfl, hleft, ?_⟩
      intro code limit? child hsent
      obtain ⟨fresh, houtput, hfresh⟩ := Child.send_output hsent
      obtain rfl := hleft
      refine ⟨fresh, houtput, hfresh, ?_⟩
      rw [Session.ask_awaited hsent, hfresh]

/-- A process that prints a line, answers a request that nobody has made, and tells with a text that
it is ready, before it gets ready. -/
def wordyProgram : Program where
  opening := ⟨[.line "loading", .line "\x7b\"id\":0,\"valid\":true\x7d",
    .line "\x7b\"ready\":\"yes\"\x7d",
    .line "\x7b\"ready\":true,\"version\":\"11.0.0\"\x7d", .line "[0,true]"], .listening⟩
  reply _ := ⟨[], .listening⟩

/-- A machine with this process. -/
def wordyMachine : Machine := .fresh "" (fun _ _ ↦ .ok wordyProgram) fun _ ↦ .zero

theorem opening_decided_wordy :
    let left := [Signal.line "[0,true]"]
    let last := [Signal.line "\x7b\"ready\":true,\"version\":\"11.0.0\"\x7d"]
    ∃ passed, wordyProgram.opening.signals = passed ++ (last ++ left) ∧
      (∀ signal ∈ passed, Idle signal) ∧
      Settles (.ofMillis 1000) .listening last left (.ok "11.0.0") ∧
      ∃ engine u, ((setup bareSite bareConfig).run wordyMachine).value = .ok engine ∧
        Opening left "11.0.0" engine u := by
  intro left last
  obtain ⟨-, -, hidle, hsetup⟩ := opening_decided
  have hprint : Json.parse? "loading" = none :=
    Option.isNone_iff_eq_none.mp (by decide +kernel)
  have hanswer : Handshake.decode? "\x7b\"id\":0,\"valid\":true\x7d" =
      some ⟨false, none, none⟩ := by
    decide +kernel
  have htext : Handshake.decode? "\x7b\"ready\":\"yes\"\x7d" = none := by
    decide +kernel
  have hready : Handshake.decode? "\x7b\"ready\":true,\"version\":\"11.0.0\"\x7d" =
      some ⟨true, some "11.0.0", none⟩ := by
    decide +kernel
  have hpassed : ∀ signal ∈ wordyProgram.opening.signals.take 3, Idle signal := by
    refine List.forall_mem_cons.mpr ⟨?_, List.forall_mem_cons.mpr ⟨?_, ?_⟩⟩
    · exact hidle "loading" fun v hv ↦ nomatch hprint.symm.trans hv
    · intro h hdecode
      obtain rfl := Option.some.inj (hanswer.symm.trans hdecode)
      exact ⟨rfl, rfl⟩
    · refine List.forall_mem_cons.mpr ⟨fun h hdecode ↦ ?_, nofun⟩
      exact nomatch htext.symm.trans hdecode
  have hsettles : Settles (.ofMillis 1000) .listening last left (.ok "11.0.0") :=
    .ready _ _ left hready rfl rfl
  have hnode : locateNode bareSite bareConfig.node? = .ok "/node" := by
    simp [locateNode, bareConfig, bareSite_node]
  have hpackages : ((locatePackages bareSite (Strategy.usual bareConfig.packages?)).run
      wordyMachine).value = .ok "/" := by
    simp [locatePackages, bareConfig, Strategy.usual, tryEach, Strategy.resolve,
      Strategy.candidates, bareSite_packages]
  refine ⟨_, rfl, hpassed, hsettles, ?_⟩
  exact ((hsetup bareSite bareConfig wordyMachine).2 "/node" "/" wordyProgram hnode hpackages rfl
    _ last left _ rfl hpassed hsettles).2 "11.0.0" rfl

end FenceLint.Engine
