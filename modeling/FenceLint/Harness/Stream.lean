import FenceLint.Harness.Child

/-!
From bytes to lines. A process writes bytes, and its reader gets lines: they end at a line feed,
a carriage return before it is dropped, and the last one may end with the stream instead.
-/

set_option autoImplicit false

namespace FenceLint.Harness

/-- The line feed. -/
def lineFeed : UInt8 := 10

/-- The carriage return. -/
def carriageReturn : UInt8 := 13

/-- The complete lines of some bytes, without their line feeds, and the bytes after the last one. -/
def cut : List UInt8 → List (List UInt8) × List UInt8
  | [] => ([], [])
  | b :: rest =>
    if b = lineFeed then ([] :: (cut rest).1, (cut rest).2)
    else match cut rest with
      | ([], tail) => ([], b :: tail)
      | (head :: more, tail) => ((b :: head) :: more, tail)

/-- The bytes of a line as a signal. -/
def signalOf (bytes : List UInt8) : Signal :=
  match String.fromUTF8? ⟨bytes.toArray⟩ with
  | some text => .line text
  | none => .garbled

/-- A complete line as a signal. -/
def completed (bytes : List UInt8) : Signal :=
  signalOf (if bytes.getLast? = some carriageReturn then bytes.dropLast else bytes)

/-- What a process writes, as bytes. -/
structure Output where
  bytes : List UInt8
  stance : Stance

/-- The signals among some bytes, the unfinished line only when the stream has ended. -/
def signalsOf (bytes : List UInt8) (stance : Stance) : List Signal :=
  (cut bytes).1.map completed ++
    (if stance = .ended && !(cut bytes).2.isEmpty then [signalOf (cut bytes).2] else [])

/-- All bytes written up to the last of some requests. -/
def bytesUntil (opening : Output) (reply : List String → Output) (heard : List String) :
    List UInt8 :=
  opening.bytes ++ (List.range heard.length).flatMap fun n ↦ (reply (heard.take (n + 1))).bytes

/-- A process that writes these bytes. A line that is begun after one request may be completed after
a later one. -/
def Program.ofOutput (opening : Output) (reply : List String → Output) : Program where
  opening := ⟨signalsOf opening.bytes opening.stance, opening.stance⟩
  reply heard :=
    let before := (cut (bytesUntil opening reply heard.dropLast)).1.length
    let stance := (reply heard).stance
    ⟨(signalsOf (bytesUntil opening reply heard) stance).drop before, stance⟩

end FenceLint.Harness
