import FenceLint.Proofs.Harness.Exchange
import FenceLint.Proofs.Json.Layout
import FenceLint.Text.Lines

/-!
Requests on their way to a process. A request is one line of compact JSON, and since a control
character of the code is always escaped, no line feed stands inside a request: cut at its line
feeds, what was written falls into the requests again (`segments_stream`), and each of them is read
as the number and the code that it was made from. Requests are written up to the first one that the
process does not take; from there on it takes none (`Session.exists_written`).
-/

set_option autoImplicit false

namespace FenceLint.Harness

/-- What lines are on the stream to a process: each one ends with a line feed. -/
def stream (lines : List String) : List Char := lines.flatMap fun line ↦ line.toList ++ ['\n']

theorem stream_cons (line : String) (rest : List String) :
    stream (line :: rest) = line.toList ++ '\n' :: stream rest := by
  simp only [stream, List.flatMap_cons, List.append_assoc, List.singleton_append]

/-- Lines are found again between the line feeds, with nothing behind the last one. -/
theorem segments_stream {lines : List String} (h : ∀ line ∈ lines, '\n' ∉ line.toList) :
    Text.segments (stream lines) = lines.map String.toList ++ [[]] := by
  induction lines with
  | nil => rfl
  | cons line rest ih =>
    obtain ⟨hline, hrest⟩ := List.forall_mem_cons.mp h
    rw [Text.segments] at ih ⊢
    rw [stream_cons, Text.pieces_append_cons, Text.pieces_of_not_mem hline, ih hrest]
    rfl

/-- A request as a value. -/
def request (id : Nat) (code : String) : Json :=
  .object [(some "id", .nat id), (some "code", .text code)]

section

variable (id : Nat) (code : String)

theorem parse?_requestLine : Json.parse? (requestLine id code) = some (request id code) :=
  Json.parse?_compact _

theorem shown_requestLine : Json.Shown (requestLine id code).toList := by
  rw [requestLine, Json.compact, String.toList_ofList]
  exact Json.shown_compactChars _

end

/-- A process to which one request was not written is not written any more. -/
theorem Child.send_without {child : Child} {line : String} {unsent : Unsent}
    (h : child.send line = .error unsent) (other : String) :
    (child.without unsent).send other = .error unsent := by
  rw [send] at h
  cases hstance : child.stance with
  | listening => simp [hstance] at h
  | silent =>
    simp only [hstance] at h
    split at h
    · cases h
    · obtain rfl := Except.error.inj h
      rfl
  | clogged =>
    simp only [hstance] at h
    obtain rfl := Except.error.inj h
    rfl
  | deaf =>
    simp only [hstance] at h
    obtain rfl := Except.error.inj h
    simp only [without, send, hstance]
  | ended =>
    simp only [hstance] at h
    obtain rfl := Except.error.inj h
    simp only [without, send, hstance]

namespace Session

/-- The requests that asking about these codes in order writes. -/
def written (s : Session) : List (String × Option Duration) → List String
  | [] => []
  | (code, limit?) :: rest =>
    (s.ask code limit?).written?.toList ++ (s.ask code limit?).session.written rest

/-- A process that takes no request is written nothing. -/
theorem written_refused {s : Session} {unsent : Unsent}
    (h : ∀ line, s.child.send line = .error unsent) (calls : List (String × Option Duration)) :
    s.written calls = [] ∧ ∀ e ∈ s.exchanges calls, e.sent = .error unsent := by
  induction calls generalizing s with
  | nil => exact ⟨rfl, fun e he ↦ absurd he List.not_mem_nil⟩
  | cons call rest ih =>
    obtain ⟨code, limit?⟩ := call
    have hask := ask_refused (h (requestLine s.nextId code)) limit?
    have hnext : ∀ line, (s.ask code limit?).session.child.send line = .error unsent := by
      rw [hask]
      exact Child.send_without (h "")
    obtain ⟨hwritten, hrest⟩ := ih hnext
    refine ⟨?_, List.forall_mem_cons.mpr ⟨h _, hrest⟩⟩
    rw [written, hwritten, hask]
    rfl

/-- What is written are the requests that the process takes, and these come before all others. -/
theorem exists_written (s : Session) (calls : List (String × Option Duration)) :
    ∃ taken refused, s.exchanges calls = taken ++ refused ∧
      (∀ e ∈ taken, ∃ child, e.sent = .ok child) ∧
      (∀ e ∈ refused, ∃ unsent, e.sent = .error unsent) ∧
      s.written calls = taken.map Exchange.line := by
  induction calls generalizing s with
  | nil =>
    refine ⟨[], [], rfl, ?_, ?_, rfl⟩ <;> exact fun e he ↦ absurd he List.not_mem_nil
  | cons call rest ih =>
    obtain ⟨code, limit?⟩ := call
    rcases hsent : s.child.send (requestLine s.nextId code) with unsent | child
    · have hask := ask_refused hsent limit?
      have hnext : ∀ line, (s.ask code limit?).session.child.send line = .error unsent := by
        rw [hask]
        exact Child.send_without hsent
      obtain ⟨hwritten, hrefused⟩ := written_refused hnext rest
      refine ⟨[], _, rfl, fun e he ↦ absurd he List.not_mem_nil, ?_, ?_⟩
      · exact List.forall_mem_cons.mpr ⟨⟨unsent, hsent⟩, fun e he ↦ ⟨unsent, hrefused e he⟩⟩
      · rw [written, hwritten, hask]
        rfl
    · obtain ⟨taken, refused, hexchanges, htaken, hrefused, hwritten⟩ :=
        ih (s.ask code limit?).session
      refine ⟨s.exchange code limit? :: taken, refused, ?_, ?_, hrefused, ?_⟩
      · rw [exchanges, hexchanges, List.cons_append]
      · exact List.forall_mem_cons.mpr ⟨⟨child, hsent⟩, htaken⟩
      · rw [written, hwritten, ask_awaited hsent]
        rfl

/-- Requests are numbered in a row and carry the codes in order. -/
theorem line_exchanges (s : Session) (calls : List (String × Option Duration)) :
    (s.exchanges calls).map Exchange.line =
      calls.mapIdx fun k call ↦ requestLine (s.nextId + k) call.1 := by
  induction calls generalizing s with
  | nil => rfl
  | cons call rest ih =>
    obtain ⟨code, limit?⟩ := call
    rw [exchanges, List.map_cons, ih, ask_nextId, List.mapIdx_cons]
    refine congrArg₂ List.cons rfl (congrArg (List.mapIdx · rest) ?_)
    funext k call
    rw [Nat.add_right_comm, Nat.add_assoc]

/-- The line with a number is the request for the code with that number. -/
theorem line_of_written {s : Session} {calls : List (String × Option Duration)} {k : Nat}
    {line : String} (h : (s.written calls)[k]? = some line) :
    ∃ call, calls[k]? = some call ∧ line = requestLine (s.nextId + k) call.1 := by
  obtain ⟨taken, refused, hexchanges, -, -, hwritten⟩ := s.exists_written calls
  have hall : ((s.exchanges calls).map Exchange.line)[k]? = some line := by
    rw [hwritten] at h
    have hk := (List.getElem?_eq_some_iff.mp h).1
    rwa [hexchanges, List.map_append, List.getElem?_append_left hk]
  rw [line_exchanges, List.getElem?_mapIdx] at hall
  obtain ⟨call, hcall, rfl⟩ := Option.map_eq_some_iff.mp hall
  exact ⟨call, hcall, rfl⟩

/-- A request is written just when the process takes it. -/
theorem lt_length_written_iff {s : Session} {calls : List (String × Option Duration)} {k : Nat}
    {e : Exchange} (h : (s.exchanges calls)[k]? = some e) :
    k < (s.written calls).length ↔ ∃ child, e.sent = .ok child := by
  obtain ⟨taken, refused, hexchanges, htaken, hrefused, hwritten⟩ := s.exists_written calls
  rw [hexchanges] at h
  rw [hwritten, List.length_map]
  constructor
  · intro hk
    rw [List.getElem?_append_left hk] at h
    exact htaken e (List.mem_of_getElem? h)
  · rintro ⟨child, hsent⟩
    by_contra hk
    rw [List.getElem?_append_right (Nat.le_of_not_lt hk)] at h
    obtain ⟨unsent, hunsent⟩ := hrefused e (List.mem_of_getElem? h)
    exact nomatch hsent.symm.trans hunsent

theorem shown_of_mem_written {s : Session} {calls : List (String × Option Duration)}
    {line : String} (h : line ∈ s.written calls) : Json.Shown line.toList := by
  obtain ⟨k, hk⟩ := List.mem_iff_getElem?.mp h
  obtain ⟨call, -, rfl⟩ := line_of_written hk
  exact shown_requestLine _ _

end Session

/-- However many codes a new session is asked about, the stream to its process is cut at the line
feeds into the requests that the process took, one line each. No line holds a control character,
and the line with a number is read as an object of just that number and the code with that
number. -/
theorem requests_framed (number : Nat) (child : Child) (version : String)
    (calls : List (String × Option Duration)) :
    let s : Session := ⟨number, child, 0, version⟩
    let lines := s.written calls
    Text.segments (stream lines) = lines.map String.toList ++ [[]] ∧
      (∀ line ∈ lines, ∀ c ∈ line.toList, 32 ≤ c.toNat) ∧
      (∀ k line, lines[k]? = some line → ∃ call, calls[k]? = some call ∧
        Json.parse? line = some (.object [(some "id", .nat k), (some "code", .text call.1)])) ∧
      ∀ k e, (s.exchanges calls)[k]? = some e →
        (k < lines.length ↔ ∃ after, e.sent = .ok after) := by
  intro s lines
  have hshown : ∀ line ∈ lines, Json.Shown line.toList :=
    fun line hline ↦ Session.shown_of_mem_written hline
  refine ⟨segments_stream ?_, hshown, ?_, fun k e h ↦ Session.lt_length_written_iff h⟩
  · intro line hline hmem
    have hfeed := hshown line hline '\n' hmem
    exact absurd hfeed (by decide)
  · intro k line hline
    obtain ⟨call, hcall, hrequest⟩ := Session.line_of_written hline
    refine ⟨call, hcall, ?_⟩
    rw [hrequest, Nat.zero_add, parse?_requestLine]
    rfl

/-- A program that reads all requests and answers none. -/
def mute : Program where
  opening := ⟨[], .listening⟩
  reply _ := ⟨[], .listening⟩

/-- Codes of several lines, with quotes and control characters. -/
def awkwardCalls : List (String × Option Duration) :=
  [("graph TD\nA[\"x\"]", some Duration.zero), ("\x00\r\n\\", none)]

theorem requests_framed_awkward :
    let s : Session := ⟨0, .start mute, 0, ""⟩
    let line := requestLine 1 "\x00\r\n\\"
    (s.written awkwardCalls)[1]? = some line ∧
      (∀ c ∈ line.toList, 32 ≤ c.toNat) ∧
      (∃ call, awkwardCalls[1]? = some call ∧
        Json.parse? line = some (.object [(some "id", .nat 1), (some "code", .text call.1)])) ∧
      1 < (s.written awkwardCalls).length := by
  intro s line
  have hline : (s.written awkwardCalls)[1]? = some line := rfl
  have hframed := requests_framed 0 (.start mute) "" awkwardCalls
  refine ⟨hline, hframed.2.1 line (List.mem_of_getElem? hline), hframed.2.2.1 1 line hline, ?_⟩
  exact (hframed.2.2.2 1 _ rfl).mpr ⟨_, rfl⟩

end FenceLint.Harness
