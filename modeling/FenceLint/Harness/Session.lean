import FenceLint.Act
import FenceLint.Failure
import FenceLint.Harness.Child
import FenceLint.Harness.Wire
import FenceLint.Log.Target

/-!
The conversation with one harness process. It opens with a handshake, then requests are numbered
from zero and each one waits for the answer with its own number. Waiting is a walk along what can
be read: lines that do not concern the reader are passed over, and the first signal that decides
ends the walk with all signals behind it unread. Without a limit nothing may ever decide, and a
request may never be written to its end: then there is no answer.
-/

set_option autoImplicit false

namespace FenceLint.Harness

/-- How a walk along signals ended. -/
structure Waited (α : Type) where
  answer : α
  /-- The signals that were not read. -/
  unread : List Signal
  log : List Log.Item

namespace Waited

variable {α : Type}

/-- The walk that ends here. -/
def stop (answer : α) (unread : List Signal) (log : List Log.Item) : Waited α :=
  ⟨answer, unread, log⟩

/-- The walk with an item logged before it. -/
def after (item : Log.Item) (w : Waited α) : Waited α := { w with log := item :: w.log }

end Waited

/-- An item of the session's log. -/
def item (level : Log.Level) (message : String) (fields : List (String × Log.Value)) : Log.Item :=
  .event ⟨level, Log.Target.session, message, fields⟩

/-- What is logged of a line that is no text. -/
def unreadable : Log.Item :=
  item .debug "Harness stdout unreadable" [("error", .shown Fault.notText.text)]

/-- What is said of a process that does not get ready in time. -/
def notReady (limit : Duration) : String :=
  s!"harness did not become ready within {limit.millis}ms"

/-- What is said of a process that goes away at its start. -/
def goneAtStart : String := "harness exited before becoming ready"

/-- Waits for a process to get ready, and gives its version. -/
def awaitReady (limit : Duration) (stance : Stance) : List Signal → Waited (Except String String)
  | [] => .stop (.error (if stance = .ended then goneAtStart else notReady limit)) [] []
  | .lull :: rest => .stop (.error (notReady limit)) rest []
  | .garbled :: rest => .stop (.error goneAtStart) rest [unreadable]
  | .closed :: rest => .stop (.error goneAtStart) (.closed :: rest) []
  | .line text :: rest =>
    match Handshake.decode? text with
    | some ⟨_, _, some reason⟩ => .stop (.error reason) rest []
    | some ⟨true, version?, none⟩ =>
      let version := version?.getD "unknown"
      .stop (.ok version) rest [item .debug "Harness ready" [("version", .shown version)]]
    | _ =>
      (awaitReady limit stance rest).after
        (item .trace "Ignoring output before handshake" [("line", .shown text)])

/-- What is said of a process that goes away while it is waited for. -/
def gone : Failure := .crashed "parser process exited"

/-- The verdict that a response brings. -/
def Response.outcome (r : Response) : Except Failure Unit :=
  if r.valid then .ok () else .error (.rejected (r.error?.getD ""))

/-- What a wait comes to that meets no signal any more. Without a limit it goes on for ever, unless
the process has ended. -/
def atLast (limit? : Option Duration) (stance : Stance) : Option (Except Failure Unit) :=
  if stance = .ended then some (.error gone) else limit?.map fun limit ↦ .error (.expired limit)

/-- Waits for the answer to the request with a number. Without a limit silences are waited out. -/
def awaitAnswer (id : Nat) (limit? : Option Duration) (stance : Stance) :
    List Signal → Waited (Option (Except Failure Unit))
  | [] => .stop (atLast limit? stance) [] []
  | .lull :: rest =>
    match limit? with
    | some limit => .stop (some (.error (.expired limit))) rest []
    | none => awaitAnswer id limit? stance rest
  | .garbled :: rest => .stop (some (.error gone)) rest [unreadable]
  | .closed :: rest => .stop (some (.error gone)) (.closed :: rest) []
  | .line text :: rest =>
    match Response.decode? text with
    | some r =>
      if r.id = id then
        .stop (some r.outcome) rest
          [item .trace "Harness response" [("id", .count id), ("valid", .flag r.valid)]]
      else
        (awaitAnswer id limit? stance rest).after
          (item .trace "Skipping stale response" [("expected", .count id), ("got", .count r.id)])
    | none =>
      (awaitAnswer id limit? stance rest).after
        (item .trace "Ignoring non-protocol output" [("line", .shown text)])

/-- A conversation that has got past its handshake. -/
structure Session where
  /-- The number of the process. -/
  number : Nat
  child : Child
  /-- The number of the next request. -/
  nextId : Nat
  version : String

namespace Session

/-- What asking came to. -/
structure Asked where
  /-- There is none if asking never comes to an end. -/
  answer : Option (Except Failure Unit)
  session : Session
  /-- The request, when it was written. -/
  written? : Option String
  log : List Log.Item

/-- The answer as it is handed on. The one that stands for none reaches nobody. -/
def Asked.verdict (asked : Asked) : Except Failure Unit := asked.answer.getD (.error gone)

/-- What asking comes to if the request is not written. -/
def unsentAnswer : Unsent → Option (Except Failure Unit)
  | .failed fault => some (.error (.crashed s!"could not send request: {fault.text}"))
  | .stuck => none

/-- Sends a code and waits for the verdict on it. -/
def ask (s : Session) (code : String) (limit? : Option Duration) : Asked :=
  let id := s.nextId
  let line := requestLine id code
  let next := { s with nextId := id + 1 }
  match s.child.send line with
  | .error unsent => ⟨unsentAnswer unsent, { next with child := s.child.without unsent }, none, []⟩
  | .ok child =>
    let w := awaitAnswer id limit? child.stance child.unread
    ⟨w.answer, { next with child := { child with unread := w.unread } }, some line, w.log⟩

end Session

end FenceLint.Harness
