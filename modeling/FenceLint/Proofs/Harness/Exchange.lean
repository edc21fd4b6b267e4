import FenceLint.Harness.Session

/-!
Exchanges: a request to a process and the wait for its answer. A wait reads up to the first signal
that decides it and leaves all signals behind that one to the next wait, so the waits of a
conversation read what the process writes piece by piece, each signal at most once.
-/

set_option autoImplicit false

namespace FenceLint.Harness

/-- The wait for the answer with a number goes on after this signal: no response with the number,
and no silence unless silences are waited out. -/
def Passes (id : Nat) (limit? : Option Duration) : Signal → Prop
  | .line text => ∀ r, Response.decode? text = some r → r.id ≠ id
  | .garbled => False
  | .lull => limit? = none
  | .closed => False

section

variable (id : Nat) (limit? : Option Duration) (stance : Stance)

/-- The signal that a wait ends with, if there is one, what it leaves, and what it comes to. -/
inductive Decides : List Signal → List Signal → Option (Except Failure Unit) → Prop
  | answered (text : String) (r : Response) (left : List Signal)
      (hdecode : Response.decode? text = some r) (hid : r.id = id) :
      Decides [.line text] left (some r.outcome)
  /-- The limit passes before a response comes. -/
  | expired (limit : Duration) (left : List Signal) (hlimit : limit? = some limit) :
      Decides [.lull] left (some (.error (.expired limit)))
  | garbled (left : List Signal) : Decides [.garbled] left (some (.error gone))
  /-- The end of the stream stays where it is. -/
  | closed (left : List Signal) : Decides [] (.closed :: left) (some (.error gone))
  | ended (hstance : stance = .ended) : Decides [] [] (some (.error gone))
  /-- The process writes nothing more before the limit passes. -/
  | silence (limit : Duration) (hstance : stance ≠ .ended) (hlimit : limit? = some limit) :
      Decides [] [] (some (.error (.expired limit)))
  /-- Neither the process nor the wait ever ends, so there is no answer. -/
  | endless (hstance : stance ≠ .ended) (hlimit : limit? = none) : Decides [] [] none

/-- What a wait comes to, by what it has read and what it has left: it has passed over all that it
read but the signal that decides. -/
def Concludes (read left : List Signal) (answer : Option (Except Failure Unit)) : Prop :=
  ∃ passed last, read = passed ++ last ∧ (∀ signal ∈ passed, Passes id limit? signal) ∧
    Decides id limit? stance last left answer

end

section

variable {id : Nat} {limit? : Option Duration} {stance : Stance} {read left : List Signal}
  {answer : Option (Except Failure Unit)}

/-- A signal that is passed over changes nothing of what a wait comes to. -/
theorem Concludes.cons {signal : Signal} (hsignal : Passes id limit? signal)
    (h : Concludes id limit? stance read left answer) :
    Concludes id limit? stance (signal :: read) left answer := by
  obtain ⟨passed, last, hread, hpassed, hdecides⟩ := h
  refine ⟨signal :: passed, last, ?_, ?_, hdecides⟩
  · rw [hread, List.cons_append]
  · exact List.forall_mem_cons.mpr ⟨hsignal, hpassed⟩

/-- A wait that the first signal decides. -/
theorem Decides.concludes (h : Decides id limit? stance read left answer) :
    Concludes id limit? stance read left answer := by
  refine ⟨[], read, rfl, ?_, h⟩
  intro signal hsignal
  exact absurd hsignal List.not_mem_nil

end

/-- A wait reads a first part of the signals, which decides its answer, and leaves the rest. -/
theorem awaitAnswer_concludes (id : Nat) (limit? : Option Duration) (stance : Stance)
    (signals : List Signal) :
    ∃ read, signals = read ++ (awaitAnswer id limit? stance signals).unread ∧
      Concludes id limit? stance read (awaitAnswer id limit? stance signals).unread
        (awaitAnswer id limit? stance signals).answer := by
  -- One signal passed over takes the claim from the signals behind it to the whole list.
  have step (signal : Signal) (rest : List Signal) (hsignal : Passes id limit? signal)
      (w : Waited (Option (Except Failure Unit)))
      (ih : ∃ read, rest = read ++ w.unread ∧
        Concludes id limit? stance read w.unread w.answer) :
      ∃ read, signal :: rest = read ++ w.unread ∧
        Concludes id limit? stance read w.unread w.answer := by
    obtain ⟨read, hread, h⟩ := ih
    exact ⟨signal :: read, by rw [hread, List.cons_append], h.cons hsignal⟩
  induction signals with
  | nil =>
    refine ⟨[], ?_⟩
    rw [awaitAnswer, atLast]
    by_cases hstance : stance = .ended
    · rw [if_pos hstance]
      exact ⟨rfl, (Decides.ended hstance).concludes⟩
    · rw [if_neg hstance]
      rcases limit? with _ | limit
      · exact ⟨rfl, (Decides.endless hstance rfl).concludes⟩
      · exact ⟨rfl, (Decides.silence limit hstance rfl).concludes⟩
  | cons signal rest ih =>
    rcases signal with text | _ | _ | _
    · rw [awaitAnswer]
      rcases hdecode : Response.decode? text with _ | r
      · refine step (.line text) rest ?_ _ ih
        intro r hr
        rw [hdecode] at hr
        exact nomatch hr
      · by_cases hid : r.id = id
        · simp only [if_pos hid]
          exact ⟨[.line text], rfl, (Decides.answered text r rest hdecode hid).concludes⟩
        · simp only [if_neg hid]
          refine step (.line text) rest ?_ _ ih
          intro r' hr'
          rw [hdecode] at hr'
          exact Option.some.inj hr' ▸ hid
    · exact ⟨[.garbled], rfl, (Decides.garbled rest).concludes⟩
    · rcases limit? with _ | limit
      · exact step .lull rest rfl _ ih
      · exact ⟨[.lull], rfl, (Decides.expired limit rest rfl).concludes⟩
    · exact ⟨[], rfl, (Decides.closed rest).concludes⟩

/-- What a wait passes over changes nothing of its answer and of what it leaves. -/
theorem awaitAnswer_passes {id : Nat} {limit? : Option Duration} {passed : List Signal}
    (stance : Stance) (h : ∀ signal ∈ passed, Passes id limit? signal) (rest : List Signal) :
    (awaitAnswer id limit? stance (passed ++ rest)).answer =
        (awaitAnswer id limit? stance rest).answer ∧
      (awaitAnswer id limit? stance (passed ++ rest)).unread =
        (awaitAnswer id limit? stance rest).unread := by
  induction passed with
  | nil => exact ⟨rfl, rfl⟩
  | cons signal passed ih =>
    obtain ⟨hsignal, htail⟩ := List.forall_mem_cons.mp h
    rw [List.cons_append, awaitAnswer.eq_def]
    rcases signal with text | _ | _ | _
    · rcases hdecode : Response.decode? text with _ | r
      · simp only [hdecode]
        exact ih htail
      · simp only [hdecode, if_neg (hsignal r hdecode)]
        exact ih htail
    · exact hsignal.elim
    · obtain rfl : limit? = none := hsignal
      exact ih htail
    · exact hsignal.elim

namespace Child

/-- All that a process has written so far. -/
def output (child : Child) : List Signal :=
  child.program.opening.signals ++ (List.range child.heard.length).flatMap fun n ↦
    (child.program.reply (child.heard.take (n + 1))).signals

theorem output_hear (child : Child) (line : String) (unread : List Signal) (stance : Stance) :
    ({ child with heard := child.heard ++ [line], unread, stance } : Child).output =
      child.output ++ (child.program.reply (child.heard ++ [line])).signals := by
  have hold : ∀ n ∈ List.range child.heard.length,
      (child.program.reply ((child.heard ++ [line]).take (n + 1))).signals =
        (child.program.reply (child.heard.take (n + 1))).signals := by
    intro n hn
    rw [List.take_append_of_le_length (List.mem_range.mp hn)]
  simp only [output, List.length_append, List.length_singleton, List.range_succ,
    List.flatMap_append, List.flatMap_cons, List.flatMap_nil, List.append_nil, List.append_assoc]
  rw [List.take_of_length_le (by simp), List.flatMap_def, List.map_congr_left hold,
    ← List.flatMap_def]

/-- A process that takes a request either hears it, and then what it writes is added to what is
unread, or leaves it in its input, which holds it. -/
theorem send_cases {child after : Child} {line : String} (h : child.send line = .ok after) :
    (child.stance = .listening ∧ after =
      { child with
        heard := child.heard ++ [line]
        unread := child.unread ++ (child.program.reply (child.heard ++ [line])).signals
        stance := (child.program.reply (child.heard ++ [line])).stance }) ∨
    (child.stance = .silent ∧ child.program.holds (child.waiting ++ [line]) = true ∧
      after = { child with waiting := child.waiting ++ [line] }) := by
  rw [send] at h
  split at h
  · exact .inl ⟨by assumption, (Except.ok.inj h).symm⟩
  · split at h
    · exact .inr ⟨by assumption, by assumption, (Except.ok.inj h).symm⟩
    · exact nomatch h
  · exact nomatch h
  · exact nomatch h
  · exact nomatch h

theorem send_program {child after : Child} {line : String} (h : child.send line = .ok after) :
    after.program = child.program := by
  rcases send_cases h with ⟨-, rfl⟩ | ⟨-, -, rfl⟩ <;> rfl

/-- What a process writes after a request is added to what is unread. -/
theorem send_output {child after : Child} {line : String} (h : child.send line = .ok after) :
    ∃ fresh, after.output = child.output ++ fresh ∧ after.unread = child.unread ++ fresh := by
  rcases send_cases h with ⟨-, rfl⟩ | ⟨-, -, rfl⟩
  · exact ⟨_, child.output_hear line _ _, rfl⟩
  · exact ⟨[], (List.append_nil _).symm, (List.append_nil _).symm⟩

/-- Reading changes nothing of what a process has written. -/
@[simp] theorem output_read (child : Child) (unread : List Signal) :
    ({ child with unread } : Child).output = child.output := rfl

section Without

variable (child : Child) (unsent : Unsent)

/-- A request that is not written changes at most whether others can be. -/
theorem without_eq : ∃ stance, child.without unsent = { child with stance } := by
  cases unsent with
  | failed fault => exact ⟨child.stance, rfl⟩
  | stuck => exact ⟨.clogged, rfl⟩

@[simp] theorem without_program : (child.without unsent).program = child.program := by
  obtain ⟨stance, h⟩ := child.without_eq unsent
  rw [h]

@[simp] theorem without_heard : (child.without unsent).heard = child.heard := by
  obtain ⟨stance, h⟩ := child.without_eq unsent
  rw [h]

@[simp] theorem without_unread : (child.without unsent).unread = child.unread := by
  obtain ⟨stance, h⟩ := child.without_eq unsent
  rw [h]

@[simp] theorem without_output : (child.without unsent).output = child.output := by
  obtain ⟨stance, h⟩ := child.without_eq unsent
  rw [h]
  rfl

end Without

/-- A process that listens takes every request, and one that does not take one does not listen, now or
later. -/
theorem not_listening {child : Child} {line : String} {unsent : Unsent}
    (h : child.send line = .error unsent) :
    child.stance ≠ .listening ∧ (child.without unsent).stance ≠ .listening := by
  have hstance : child.stance ≠ .listening := by
    intro hlistening
    rw [send, hlistening] at h
    exact nomatch h
  cases unsent with
  | failed fault => exact ⟨hstance, hstance⟩
  | stuck => exact ⟨hstance, nofun⟩

end Child

/-- A request of a conversation and what became of it. -/
structure Exchange where
  /-- The number of the process. -/
  process : Nat
  /-- The number of the request. -/
  id : Nat
  code : String
  limit? : Option Duration
  /-- The process with the request written to it, or why it was not written. -/
  sent : Except Unsent Child
  /-- The signals that were read in the wait for the answer. -/
  read : List Signal
  /-- The signals that were left. -/
  left : List Signal
  /-- There is none if the exchange never came to an end. -/
  answer : Option (Except Failure Unit)

namespace Exchange

/-- The line of the request. -/
def line (e : Exchange) : String := requestLine e.id e.code

/-- The answer is what writing the request and waiting came to. -/
inductive Settled (e : Exchange) : Prop
  | refused (fault : Fault) (hsent : e.sent = .error (.failed fault)) (hread : e.read = [])
      (hanswer : e.answer = some (.error (.crashed s!"could not send request: {fault.text}")))
  | stuck (hsent : e.sent = .error .stuck) (hread : e.read = []) (hanswer : e.answer = none)
  | awaited (child : Child) (hsent : e.sent = .ok child)
      (hunread : child.unread = e.read ++ e.left)
      (hwait : Concludes e.id e.limit? child.stance e.read e.left e.answer)

end Exchange

namespace Session

/-- The exchange that asking about a code is. -/
def exchange (s : Session) (code : String) (limit? : Option Duration) : Exchange :=
  let sent := s.child.send (requestLine s.nextId code)
  let asked := s.ask code limit?
  let left := asked.session.child.unread
  { process := s.number
    id := s.nextId
    code
    limit?
    sent
    read := match sent with
      | .ok child => child.unread.take (child.unread.length - left.length)
      | .error _ => []
    left
    answer := asked.answer }

/-- A request that is not written uses up its number and reads nothing. -/
theorem ask_refused {s : Session} {code : String} {unsent : Unsent}
    (hsent : s.child.send (requestLine s.nextId code) = .error unsent)
    (limit? : Option Duration) :
    s.ask code limit? = ⟨unsentAnswer unsent,
      { s with nextId := s.nextId + 1, child := s.child.without unsent }, none, []⟩ := by
  simp only [ask, hsent]

theorem ask_awaited {s : Session} {code : String} {child : Child}
    (hsent : s.child.send (requestLine s.nextId code) = .ok child)
    (limit? : Option Duration) :
    s.ask code limit? =
      let w := awaitAnswer s.nextId limit? child.stance child.unread
      ⟨w.answer, { s with nextId := s.nextId + 1, child := { child with unread := w.unread } },
        some (requestLine s.nextId code), w.log⟩ := by
  simp only [ask, hsent]

theorem exchange_settled (s : Session) (code : String) (limit? : Option Duration) :
    (s.exchange code limit?).Settled := by
  rcases hsent : s.child.send (requestLine s.nextId code) with unsent | child
  · have hread : (s.exchange code limit?).read = [] := by simp only [exchange, hsent]
    have hanswer : (s.exchange code limit?).answer = unsentAnswer unsent := by
      simp only [exchange, ask_refused hsent]
    cases unsent with
    | failed fault => exact .refused fault hsent hread hanswer
    | stuck => exact .stuck hsent hread hanswer
  · obtain ⟨read, hunread, hwait⟩ :=
      awaitAnswer_concludes s.nextId limit? child.stance child.unread
    have hread : (s.exchange code limit?).read = read := by
      simp only [exchange, hsent, ask_awaited hsent]
      generalize (awaitAnswer s.nextId limit? child.stance child.unread).unread = left at hunread
      rw [hunread, List.length_append, Nat.add_sub_cancel, List.take_left]
    refine .awaited child hsent ?_ ?_
    · rw [hread]
      simpa only [exchange, ask_awaited hsent] using hunread
    · rw [hread]
      simpa only [exchange, ask_awaited hsent] using hwait

/-- What the process writes after a request is added to what was unread, and the wait reads a first
part of it all. -/
theorem ask_signals (s : Session) (code : String) (limit? : Option Duration) :
    ∃ fresh, (s.ask code limit?).session.child.output = s.child.output ++ fresh ∧
      s.child.unread ++ fresh =
        (s.exchange code limit?).read ++ (s.ask code limit?).session.child.unread := by
  rcases hsent : s.child.send (requestLine s.nextId code) with unsent | child
  · refine ⟨[], ?_, ?_⟩
    · rw [ask_refused hsent, List.append_nil, Child.without_output]
    · have hread : (s.exchange code limit?).read = [] := by simp only [exchange, hsent]
      rw [ask_refused hsent, hread, List.append_nil, List.nil_append, Child.without_unread]
  · obtain ⟨fresh, houtput, hunread⟩ := Child.send_output hsent
    refine ⟨fresh, ?_, ?_⟩
    · rw [ask_awaited hsent]
      exact houtput
    · rcases s.exchange_settled code limit? with
        ⟨fault, hfault, -, -⟩ | ⟨hstuck, -, -⟩ | ⟨child', hok, hread, -⟩
      · exact nomatch hsent.symm.trans hfault
      · exact nomatch hsent.symm.trans hstuck
      · rw [← hunread, Except.ok.inj (hsent.symm.trans hok)]
        exact hread

/-- A process that listens hears the request. Any other hears nothing now or later. -/
theorem ask_heard (s : Session) (code : String) (limit? : Option Duration) :
    (s.child.stance = .listening ∧ (s.ask code limit?).session.child.heard =
      s.child.heard ++ [requestLine s.nextId code]) ∨
    (s.child.stance ≠ .listening ∧
      (s.ask code limit?).session.child.heard = s.child.heard ∧
      (s.ask code limit?).session.child.stance ≠ .listening) := by
  rcases hsent : s.child.send (requestLine s.nextId code) with unsent | child
  · obtain ⟨hbefore, hafter⟩ := Child.not_listening hsent
    rw [ask_refused hsent]
    exact .inr ⟨hbefore, Child.without_heard _ _, hafter⟩
  · rw [ask_awaited hsent]
    rcases Child.send_cases hsent with ⟨hlistening, hafter⟩ | ⟨hsilent, -, hafter⟩
    · exact .inl ⟨hlistening, by rw [hafter]⟩
    · have hdeaf : s.child.stance ≠ .listening := by
        rw [hsilent]
        exact nofun
      exact .inr ⟨hdeaf, by rw [hafter], by rwa [hafter]⟩

theorem ask_program (s : Session) (code : String) (limit? : Option Duration) :
    (s.ask code limit?).session.child.program = s.child.program := by
  rcases hsent : s.child.send (requestLine s.nextId code) with unsent | child
  · rw [ask_refused hsent, Child.without_program]
  · rw [ask_awaited hsent, ← Child.send_program hsent]

/-- Whatever becomes of a request, the next one has the next number. -/
theorem ask_nextId (s : Session) (code : String) (limit? : Option Duration) :
    (s.ask code limit?).session.nextId = s.nextId + 1 := by
  rcases hsent : s.child.send (requestLine s.nextId code) with fault | child
  · rw [ask_refused hsent]
  · rw [ask_awaited hsent]

theorem ask_number (s : Session) (code : String) (limit? : Option Duration) :
    (s.ask code limit?).session.number = s.number := by
  rcases hsent : s.child.send (requestLine s.nextId code) with fault | child
  · rw [ask_refused hsent]
  · rw [ask_awaited hsent]

/-- A session after some exchanges. -/
structure Continues (s : Session) (history : List Exchange) (t : Session) : Prop where
  number : t.number = s.number
  program : t.child.program = s.child.program
  nextId : t.nextId = s.nextId + history.length
  /-- Every request has the next number. -/
  ids : history.map Exchange.id = List.range' s.nextId history.length
  settled : ∀ e ∈ history, e.process = s.number ∧ e.Settled
  /-- The process has heard these requests in order and no others, and it has heard all of them if
  it still listens. -/
  heard : ∃ lines, t.child.heard = s.child.heard ++ lines ∧
    lines <+: history.map Exchange.line ∧
    (t.child.stance = .listening → lines = history.map Exchange.line)
  /-- What the process has written since was added to what was unread before, and of this the
  exchanges have read one part after the other. -/
  signals : ∃ fresh, t.child.output = s.child.output ++ fresh ∧
    s.child.unread ++ fresh = history.flatMap Exchange.read ++ t.child.unread

namespace Continues

theorem refl (s : Session) : s.Continues [] s where
  number := rfl
  program := rfl
  nextId := rfl
  ids := rfl
  settled := by
    intro e he
    exact absurd he List.not_mem_nil
  heard := ⟨[], (List.append_nil _).symm, List.nil_prefix, fun _ ↦ rfl⟩
  signals := ⟨[], (List.append_nil _).symm, List.append_nil _⟩

variable {s t : Session} {history : List Exchange}

/-- The next request joins the exchanges before it. -/
theorem ask (h : s.Continues history t) (code : String) (limit? : Option Duration) :
    s.Continues (history ++ [t.exchange code limit?]) (t.ask code limit?).session where
  number := (t.ask_number code limit?).trans h.number
  program := (t.ask_program code limit?).trans h.program
  nextId := by
    rw [ask_nextId, h.nextId, List.length_append, List.length_singleton, Nat.add_assoc]
  ids := by
    rw [List.map_append, h.ids, List.length_append, List.length_singleton, List.range'_concat,
      List.map_singleton, Nat.one_mul, ← h.nextId]
    rfl
  settled := by
    intro e he
    rcases List.mem_append.mp he with he | he
    · exact h.settled e he
    · rw [List.mem_singleton.mp he]
      exact ⟨h.number, t.exchange_settled code limit?⟩
  heard := by
    obtain ⟨lines, hheard, hprefix, hall⟩ := h.heard
    have hlines : (history ++ [t.exchange code limit?]).map Exchange.line =
        history.map Exchange.line ++ [requestLine t.nextId code] := by
      rw [List.map_append, List.map_singleton]
      rfl
    rw [hlines]
    rcases t.ask_heard code limit? with ⟨hlistening, hask⟩ | ⟨-, hask, hstance⟩
    · rw [hask, hheard, List.append_assoc, hall hlistening]
      exact ⟨_, rfl, List.prefix_rfl, fun _ ↦ rfl⟩
    · exact ⟨lines, hask.trans hheard, hprefix.trans (List.prefix_append _ _),
        fun hlistening ↦ absurd hlistening hstance⟩
  signals := by
    obtain ⟨before, houtput, hread⟩ := h.signals
    obtain ⟨fresh, hfresh, hask⟩ := t.ask_signals code limit?
    refine ⟨before ++ fresh, ?_, ?_⟩
    · rw [hfresh, houtput, List.append_assoc]
    · rw [← List.append_assoc, hread, List.append_assoc, hask, List.flatMap_append,
        List.flatMap_singleton, List.append_assoc]

end Continues

/-- The session after asking about these codes in order. -/
def after (s : Session) : List (String × Option Duration) → Session
  | [] => s
  | (code, limit?) :: rest => (s.ask code limit?).session.after rest

/-- The exchanges that asking about these codes in order leads to. -/
def exchanges (s : Session) : List (String × Option Duration) → List Exchange
  | [] => []
  | (code, limit?) :: rest =>
    s.exchange code limit? :: (s.ask code limit?).session.exchanges rest

/-- However many codes a session is asked about, and in whatever way its process behaves. -/
theorem Continues.run {s t : Session} {history : List Exchange} (h : s.Continues history t)
    (calls : List (String × Option Duration)) :
    s.Continues (history ++ t.exchanges calls) (t.after calls) := by
  induction calls generalizing t history with
  | nil => simpa only [exchanges, after, List.append_nil] using h
  | cons call rest ih =>
    have := ih (h.ask call.1 call.2)
    simpa only [exchanges, after, List.append_assoc, List.singleton_append] using this

end Session

end FenceLint.Harness
