import FenceLint.Fault

/-!
A harness process as the program sees it: what can be read from it next, and what it does with the
next request. How a process behaves is given by what it writes at the start and after each request,
which may depend on all requests so far, and by how much its input holds while it does not read.
-/

set_option autoImplicit false

namespace FenceLint.Harness

/-- What a reader meets next. -/
inductive Signal
  | line (text : String)
  /-- A line whose bytes are no text. -/
  | garbled
  /-- A silence that outlasts every limit. -/
  | lull
  /-- The end of the stream; nothing behind it is ever met. -/
  | closed
  deriving DecidableEq, Repr

/-- What a process does once it has written. -/
inductive Stance
  /-- It waits for a request. -/
  | listening
  /-- It neither reads nor writes any more. -/
  | silent
  /-- It neither reads nor writes any more, and a request is stuck in front of its full input. -/
  | clogged
  /-- It has closed its input and writes no more. -/
  | deaf
  /-- It has ended. -/
  | ended
  deriving DecidableEq, Repr

/-- What a process writes, and what it does then. -/
structure Burst where
  signals : List Signal
  stance : Stance
  deriving DecidableEq, Repr

/-- The most bytes that a pipe holds. -/
def pipeSize : Nat := 65536

/-- The bytes of some lines, each with a line feed behind it. -/
def lineBytes : List String → Nat
  | [] => 0
  | line :: rest => line.utf8ByteSize + 1 + lineBytes rest

/-- Whether some lines fit into a pipe. -/
def fitsPipe (lines : List String) : Bool := (lineBytes lines).ble pipeSize

/-- The behaviour of a process. -/
structure Program where
  opening : Burst
  /-- What follows a request, given all requests so far, the oldest first. -/
  reply : List String → Burst
  /-- Whether the input of the process holds these requests while it reads none of them. -/
  holds : List String → Bool := fitsPipe

/-- A process that has been started. -/
structure Child where
  program : Program
  /-- The requests that it has read, the oldest first. -/
  heard : List String
  /-- The requests in its input that it has not read, the oldest first. -/
  waiting : List String
  /-- What it has written and nobody has read. -/
  unread : List Signal
  stance : Stance

/-- Why a request is not written. -/
inductive Unsent
  | failed (fault : Fault)
  /-- The input is full and nobody empties it, so that writing never comes to an end. -/
  | stuck
  deriving DecidableEq, Repr

namespace Child

/-- A process at its start. -/
def start (program : Program) : Child :=
  ⟨program, [], [], program.opening.signals, program.opening.stance⟩

/-- Writes a request to a process. One that has ended or closed its input takes none; a silent one
leaves it unread, if its input holds it. -/
def send (child : Child) (line : String) : Except Unsent Child :=
  match child.stance with
  | .listening =>
    let heard := child.heard ++ [line]
    let burst := child.program.reply heard
    .ok { child with
      heard := heard
      unread := child.unread ++ burst.signals
      stance := burst.stance }
  | .silent =>
    if child.program.holds (child.waiting ++ [line]) then
      .ok { child with waiting := child.waiting ++ [line] }
    else .error .stuck
  | .clogged => .error .stuck
  | .deaf => .error (.failed .brokenPipe)
  | .ended => .error (.failed .brokenPipe)

/-- A process to which a request was not written. -/
def without (child : Child) : Unsent → Child
  | .failed _ => child
  | .stuck => { child with stance := .clogged }

end Child

end FenceLint.Harness
