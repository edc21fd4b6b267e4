import FenceLint.Proofs.Harness.Exchange
import FenceLint.Proofs.Json.Units

/-!
Rejections as a process writes them. The message is a string of sixteen-bit units, and a parser that
quotes a piece of a diagram may cut it between the halves of a surrogate pair. A line whose message
is a text is a response, and the wait ends with it. A line whose message holds a lone half is no
response at all (`decode?_rejectionLine`): the wait passes over it, and the rejection is lost.
-/

set_option autoImplicit false

namespace FenceLint.Harness

/-- The line by which a process rejects the request with a number. -/
def rejectionLine (id : Nat) (message : List UInt16) : String :=
  String.ofList ('{' :: Json.compactMembers [(some "id", .nat id), (some "valid", .bool false)] ++
    ',' :: Json.quoted (some "error") ++ ':' :: '"' :: Json.escapeUnits message ++ ['"', '}'])

section

open Json

variable (id : Nat) (message : List UInt16)

/-- A rejection is read with the text of its units, or with no text. -/
theorem parse?_rejectionLine : parse? (rejectionLine id message) =
    some (.object [(some "id", .nat id), (some "valid", .bool false),
      (some "error", .string ((unitsText? message).map String.ofList))]) := by
  refine parse?_of_tokens ?_
  let front : List (Option String × Json) := [(some "id", .nat id), (some "valid", .bool false)]
  have hopen (rest : List Char) := tokens_append (t := .openObject) rfl rest
  have hfront (rest : List Char) := tokens_compactMembers front (',' :: rest) (ends_comma rest)
  have hcomma (rest : List Char) := tokens_append (t := .comma) rfl rest
  have hkey (rest : List Char) := tokens_append (t := .string (some "error")) rfl rest
  have hcolon (rest : List Char) := tokens_append (t := .colon) rfl rest
  have hmessage (rest : List Char) := tokens_units message rest
  have hclose (rest : List Char) := tokens_append (t := .closeObject) rfl rest
  simp only [Token.spell, List.cons_append, List.nil_append] at hopen hcomma hkey hcolon hclose
  simp only [rejectionLine, String.toList_ofList, List.cons_append, List.append_assoc]
  rw [hopen, hfront, hcomma, hkey, hcolon, hmessage, hclose, tokens_nil]
  rfl

theorem decode?_rejectionLine {id : Nat} (hid : id < Decimal.wordBound) :
    Response.decode? (rejectionLine id message) =
      (unitsText? message).map fun text ↦ ⟨id, false, some (String.ofList text)⟩ := by
  rw [Response.decode?, parse?_rejectionLine, Option.bind_some]
  cases unitsText? message <;>
    simp [Response.ofJson?, fields?, List.lookup_cons, Json.nat, identifier?, hid, bool?, text?]

end

namespace Session

variable {s : Session} {code : String} {limit? : Option Duration} {child : Child}
  {passed left : List Signal} {text : String}

/-- What is passed over before a line does not change what asking comes to. -/
theorem ask_behind (hsent : s.child.send (requestLine s.nextId code) = .ok child)
    (hunread : child.unread = passed ++ .line text :: left)
    (hpassed : ∀ signal ∈ passed, Passes s.nextId limit? signal) :
    let w := awaitAnswer s.nextId limit? child.stance (.line text :: left)
    (s.ask code limit?).answer = w.answer ∧ (s.ask code limit?).session.child.unread = w.unread := by
  have hbehind := awaitAnswer_passes child.stance hpassed (.line text :: left)
  rw [← hunread] at hbehind
  rw [ask_awaited hsent]
  exact hbehind

end Session

/-- A rejection that comes while its request is waited for, before the limit, and behind nothing but
what the wait passes over. If every half of a surrogate pair in its message stands beside its other
half, the wait ends with the rejection and its text; if not, the wait goes on behind it as if it had
not come. -/
theorem rejection_heard_or_lost {s : Session} {code : String} {limit? : Option Duration}
    {child : Child} {message : List UInt16} {passed left : List Signal}
    (hid : s.nextId < Decimal.wordBound)
    (hsent : s.child.send (requestLine s.nextId code) = .ok child)
    (hunread : child.unread = passed ++ .line (rejectionLine s.nextId message) :: left)
    (hpassed : ∀ signal ∈ passed, Passes s.nextId limit? signal) :
    let asked := s.ask code limit?
    (Json.Paired message → ∃ text, Json.unitsText? message = some text ∧
      asked.answer = some (.error (.rejected (String.ofList text))) ∧
      asked.session.child.unread = left) ∧
    (¬Json.Paired message →
      asked.answer = (awaitAnswer s.nextId limit? child.stance left).answer ∧
      asked.session.child.unread = (awaitAnswer s.nextId limit? child.stance left).unread) := by
  intro asked
  obtain ⟨hanswer, hleft⟩ := Session.ask_behind hsent hunread hpassed
  have hdecode := decode?_rejectionLine message hid
  rw [awaitAnswer, hdecode] at hanswer hleft
  constructor
  · intro hpaired
    obtain ⟨text, htext⟩ := Option.isSome_iff_exists.mp
      ((Json.unitsText?_isSome_iff message).mpr hpaired)
    rw [htext, Option.map_some] at hanswer hleft
    simp only [if_true] at hanswer hleft
    exact ⟨text, htext, hanswer, hleft⟩
  · intro hpaired
    have hnone : Json.unitsText? message = none := by
      rw [← Option.not_isSome_iff_eq_none, Json.unitsText?_isSome_iff]
      exact hpaired
    rw [hnone, Option.map_none] at hanswer hleft
    exact ⟨hanswer, hleft⟩

/-- A session whose process answers its first request with a line and then stays silent. -/
def answeredBy (line : String) : Session :=
  let program : Program := { opening := ⟨[], .listening⟩, reply _ := ⟨[.line line], .silent⟩ }
  ⟨0, .start program, 0, "11.0.0"⟩

/-- The message is a quote, a line feed and a whole surrogate pair. -/
theorem rejection_heard_or_lost_pair :
    let message : List UInt16 := [0x22, 0x0A, 0xD83D, 0xDE00]
    let s := answeredBy (rejectionLine 0 message)
    ∃ child, s.child.send (requestLine 0 "graph TD") = .ok child ∧
      child.unread = [.line (rejectionLine 0 message)] ∧
      Json.Paired message ∧ ∃ text, Json.unitsText? message = some text ∧
        (s.ask "graph TD" (some (.ofMillis 500))).answer =
          some (.error (.rejected (String.ofList text))) := by
  intro message s
  have hpaired : Json.Paired message := by
    refine .unit _ _ (by decide) (by decide) (.unit _ _ (by decide) (by decide) ?_)
    exact .pair _ _ _ (by decide) (by decide) .nil
  obtain ⟨child, hsent, hunread⟩ : ∃ child, s.child.send (requestLine 0 "graph TD") = .ok child ∧
      child.unread = [] ++ .line (rejectionLine 0 message) :: [] := ⟨_, rfl, rfl⟩
  have hpassed : ∀ signal ∈ ([] : List Signal), Passes 0 (some (.ofMillis 500)) signal := nofun
  have hid : s.nextId < Decimal.wordBound := by decide
  obtain ⟨text, htext, hanswer, -⟩ :=
    (rejection_heard_or_lost hid hsent hunread hpassed).1 hpaired
  exact ⟨child, hsent, hunread, hpaired, text, htext, hanswer⟩

/-- The message ends with a first half, and the rejection is lost: the request runs out of time,
though its answer had come. -/
theorem rejection_lost_half :
    let message : List UInt16 := [0x6E, 0x65, 0x61, 0x72, 0x20, 0xD83D]
    let limit : Duration := .ofMillis 500
    let s := answeredBy (rejectionLine 0 message)
    (s.child.send (requestLine 0 "graph TD")).map Child.unread =
        .ok [.line (rejectionLine 0 message)] ∧
      (s.ask "graph TD" (some limit)).answer = some (.error (.expired limit)) := by
  intro message limit s
  have hnone : Json.unitsText? message = none := by decide
  have hdecode := decode?_rejectionLine message (show 0 < Decimal.wordBound by decide)
  rw [hnone, Option.map_none] at hdecode
  refine ⟨rfl, ?_⟩
  change (awaitAnswer 0 (some limit) .silent [.line (rejectionLine 0 message)]).answer = _
  rw [awaitAnswer, hdecode]
  rfl

end FenceLint.Harness
