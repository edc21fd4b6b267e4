import FenceLint.Harness.Session

/-!
The handshake. A process may print what it likes before it says how its start went. The wait goes on
over every line that says nothing of that (`Idle`), and the first other signal decides it
(`Settles`): what it comes to, and what is left to be read later. So a wait is told by the signal
that decides it alone (`awaitReady_iff`), and idle lines in front of that one change nothing. Which
lines are idle is read off their JSON (`Beside`): prints, values of other kinds, objects about
something else, and fields of the wrong type.
-/

set_option autoImplicit false

namespace FenceLint.Harness

/-- The wait for a process to get ready goes on after this signal: a line that is no handshake, or a
handshake that is neither ready nor fatal. -/
def Idle : Signal → Prop
  | .line text => ∀ h, Handshake.decode? text = some h → h.fatal? = none ∧ h.ready = false
  | .garbled => False
  | .lull => False
  | .closed => False

/-- The signal that ends the wait for a process to get ready, if there is one, what it leaves, and
what the wait comes to. -/
inductive Settles (limit : Duration) (stance : Stance) :
    List Signal → List Signal → Except String String → Prop
  /-- A fatal reason counts, whatever else the handshake says. -/
  | fatal (text : String) (h : Handshake) (reason : String) (left : List Signal)
      (hdecode : Handshake.decode? text = some h) (hfatal : h.fatal? = some reason) :
      Settles limit stance [.line text] left (.error reason)
  | ready (text : String) (h : Handshake) (left : List Signal)
      (hdecode : Handshake.decode? text = some h) (hfatal : h.fatal? = none)
      (hready : h.ready = true) :
      Settles limit stance [.line text] left (.ok (h.version?.getD "unknown"))
  /-- The limit passes before the process is ready. -/
  | late (left : List Signal) : Settles limit stance [.lull] left (.error (notReady limit))
  | garbled (left : List Signal) : Settles limit stance [.garbled] left (.error goneAtStart)
  /-- The end of the stream stays where it is. -/
  | closed (left : List Signal) : Settles limit stance [] (.closed :: left) (.error goneAtStart)
  | ended (hstance : stance = .ended) : Settles limit stance [] [] (.error goneAtStart)
  /-- The process writes nothing more before the limit passes. -/
  | silence (hstance : stance ≠ .ended) : Settles limit stance [] [] (.error (notReady limit))

section

variable {limit : Duration} {stance : Stance}

/-- The wait ends with the signal that settles it. -/
theorem Settles.awaitReady {last left : List Signal} {answer : Except String String}
    (h : Settles limit stance last left answer) :
    (awaitReady limit stance (last ++ left)).answer = answer ∧
      (awaitReady limit stance (last ++ left)).unread = left := by
  cases h with
  | fatal text h reason left hdecode hfatal =>
    obtain ⟨ready, version?, fatal?⟩ := h
    obtain rfl : fatal? = some reason := hfatal
    rw [List.singleton_append, Harness.awaitReady, hdecode]
    exact ⟨rfl, rfl⟩
  | ready text h left hdecode hfatal hready =>
    obtain ⟨ready, version?, fatal?⟩ := h
    obtain rfl : fatal? = none := hfatal
    obtain rfl : ready = true := hready
    rw [List.singleton_append, Harness.awaitReady, hdecode]
    exact ⟨rfl, rfl⟩
  | late left => exact ⟨rfl, rfl⟩
  | garbled left => exact ⟨rfl, rfl⟩
  | closed left => exact ⟨rfl, rfl⟩
  | ended hstance =>
    rw [List.append_nil, Harness.awaitReady, if_pos hstance]
    exact ⟨rfl, rfl⟩
  | silence hstance =>
    rw [List.append_nil, Harness.awaitReady, if_neg hstance]
    exact ⟨rfl, rfl⟩

/-- An idle signal changes nothing of what the wait comes to and leaves. -/
theorem awaitReady_idle {signal : Signal} (h : Idle signal) (rest : List Signal) :
    (awaitReady limit stance (signal :: rest)).answer = (awaitReady limit stance rest).answer ∧
      (awaitReady limit stance (signal :: rest)).unread =
        (awaitReady limit stance rest).unread := by
  cases signal with
  | line text =>
    rw [awaitReady]
    cases hdecode : Handshake.decode? text with
    | none => exact ⟨rfl, rfl⟩
    | some handshake =>
      obtain ⟨hfatal, hready⟩ := h handshake hdecode
      obtain ⟨ready, version?, fatal?⟩ := handshake
      obtain rfl : fatal? = none := hfatal
      obtain rfl : ready = false := hready
      exact ⟨rfl, rfl⟩
  | garbled => exact h.elim
  | lull => exact h.elim
  | closed => exact h.elim

variable (limit stance)

theorem awaitReady_append {idle : List Signal} (h : ∀ signal ∈ idle, Idle signal)
    (rest : List Signal) :
    (awaitReady limit stance (idle ++ rest)).answer = (awaitReady limit stance rest).answer ∧
      (awaitReady limit stance (idle ++ rest)).unread = (awaitReady limit stance rest).unread := by
  induction idle with
  | nil => exact ⟨rfl, rfl⟩
  | cons signal idle ih =>
    obtain ⟨hsignal, hidle⟩ := List.forall_mem_cons.mp h
    obtain ⟨hanswer, hunread⟩ := awaitReady_idle hsignal (idle ++ rest)
    exact ⟨hanswer.trans (ih hidle).1, hunread.trans (ih hidle).2⟩

/-- A line is idle, or it settles the wait. -/
theorem idle_or_settles (text : String) (left : List Signal) :
    Idle (.line text) ∨ ∃ answer, Settles limit stance [.line text] left answer := by
  cases hdecode : Handshake.decode? text with
  | none => exact Or.inl fun h hother ↦ nomatch hdecode.symm.trans hother
  | some handshake =>
    cases hfatal : handshake.fatal? with
    | some reason => exact Or.inr ⟨_, .fatal text handshake reason left hdecode hfatal⟩
    | none =>
      by_cases hready : handshake.ready = true
      · exact Or.inr ⟨_, .ready text handshake left hdecode hfatal hready⟩
      · refine Or.inl fun h hother ↦ ?_
        obtain rfl : handshake = h := Option.some.inj (hdecode.symm.trans hother)
        exact ⟨hfatal, Bool.eq_false_iff.mpr hready⟩

/-- Some signal settles every wait, behind idle lines only. -/
theorem exists_settles (signals : List Signal) :
    ∃ passed last left answer, signals = passed ++ (last ++ left) ∧
      (∀ signal ∈ passed, Idle signal) ∧ Settles limit stance last left answer := by
  induction signals with
  | nil =>
    by_cases hstance : stance = .ended
    · exact ⟨[], [], [], _, rfl, nofun, .ended hstance⟩
    · exact ⟨[], [], [], _, rfl, nofun, .silence hstance⟩
  | cons signal rest ih =>
    cases signal with
    | line text =>
      rcases idle_or_settles limit stance text rest with hidle | ⟨answer, hsettles⟩
      · obtain ⟨passed, last, left, answer, hrest, hpassed, hsettles⟩ := ih
        refine ⟨.line text :: passed, last, left, answer, ?_, ?_, hsettles⟩
        · rw [hrest, List.cons_append]
        · exact List.forall_mem_cons.mpr ⟨hidle, hpassed⟩
      · exact ⟨[], [.line text], rest, answer, rfl, nofun, hsettles⟩
    | garbled => exact ⟨[], [.garbled], rest, _, rfl, nofun, .garbled rest⟩
    | lull => exact ⟨[], [.lull], rest, _, rfl, nofun, .late rest⟩
    | closed => exact ⟨[], [], .closed :: rest, _, rfl, nofun, .closed rest⟩

/-- A wait comes to what the first signal makes of it that is not idle, and leaves what is behind
that one. -/
theorem awaitReady_iff (signals left : List Signal) (answer : Except String String) :
    ((awaitReady limit stance signals).answer = answer ∧
        (awaitReady limit stance signals).unread = left) ↔
      ∃ passed last, signals = passed ++ (last ++ left) ∧ (∀ signal ∈ passed, Idle signal) ∧
        Settles limit stance last left answer := by
  have hcomes {passed last left : List Signal} {answer : Except String String}
      (hpassed : ∀ signal ∈ passed, Idle signal) (h : Settles limit stance last left answer) :
      (awaitReady limit stance (passed ++ (last ++ left))).answer = answer ∧
        (awaitReady limit stance (passed ++ (last ++ left))).unread = left := by
    obtain ⟨hanswer, hunread⟩ := awaitReady_append limit stance hpassed (last ++ left)
    exact ⟨hanswer.trans h.awaitReady.1, hunread.trans h.awaitReady.2⟩
  constructor
  · rintro ⟨hanswer, hleft⟩
    obtain ⟨passed, last, left', answer', hsignals, hpassed, hsettles⟩ :=
      exists_settles limit stance signals
    obtain ⟨hanswer', hleft'⟩ := hcomes hpassed hsettles
    rw [← hsignals] at hanswer' hleft'
    obtain rfl : answer' = answer := hanswer'.symm.trans hanswer
    obtain rfl : left' = left := hleft'.symm.trans hleft
    exact ⟨passed, last, hsignals, hpassed, hsettles⟩
  · rintro ⟨passed, last, hsignals, hpassed, hsettles⟩
    rw [hsignals]
    exact hcomes hpassed hsettles

end

/-- A JSON value that says nothing of how a start went. -/
inductive Beside : Json → Prop
  | null : Beside .null
  | bool (b : Bool) : Beside (.bool b)
  | number (n : Json.Number) : Beside (.number n)
  | string (text? : Option String) : Beside (.string text?)
  | array (items : List Json) (h : items.length ≠ 3) : Beside (.array items)
  /-- An object about something else, as an answer to a request is. -/
  | stranger (members : List (Option String × Json))
      (h : ∀ m ∈ members, m.1 ≠ some "ready" ∧ m.1 ≠ some "fatal") : Beside (.object members)
  | mistypedReady (members : List (Option String × Json)) (v : Json)
      (hmem : (some "ready", v) ∈ members) (hv : ∀ b, v ≠ .bool b) : Beside (.object members)
  | mistypedText (members : List (Option String × Json)) (name : String) (v : Json)
      (hname : name = "version" ∨ name = "fatal") (hmem : (some name, v) ∈ members)
      (hnull : v ≠ .null) (htext : ∀ s, v ≠ .string (some s)) : Beside (.object members)

section

variable {members : List (Option String × Json)} {name : String} {v : Json}

/-- A key that no member has is looked up in vain. -/
theorem lookup_of_strange (h : ∀ m ∈ members, m.1 ≠ some name) :
    members.lookup (some name) = none := by
  rw [List.lookup_eq_none_iff]
  intro m hm
  simpa using Ne.symm (h m hm)

/-- A key that no other member has leads to its value. -/
theorem lookup_of_mem (hone : members.countP (·.1 == some name) ≤ 1)
    (hmem : (some name, v) ∈ members) : members.lookup (some name) = some v := by
  induction members with
  | nil => exact absurd hmem List.not_mem_nil
  | cons m rest ih =>
    obtain ⟨key, w⟩ := m
    by_cases hkey : key = some name
    · subst hkey
      rw [List.countP_cons_of_pos (by simp)] at hone
      rcases List.mem_cons.mp hmem with heq | hrest
      · rw [← heq, List.lookup_cons_self]
      · have hpos : 0 < rest.countP (·.1 == some name) :=
          List.countP_pos_iff.mpr ⟨_, hrest, by simp⟩
        omega
    · rw [List.countP_cons_of_neg (by simpa using hkey)] at hone
      rcases List.mem_cons.mp hmem with heq | hrest
      · exact absurd (congrArg Prod.fst heq).symm hkey
      · have hother : (some name == key) = false := by
          simpa using Ne.symm hkey
        rw [List.lookup_cons, hother]
        exact ih hone hrest

theorem bool?_eq_some_iff {b : Bool} : bool? v = some b ↔ v = .bool b := by
  cases v <;> simp [bool?]

/-- A field that is there and neither null nor a text is no text field. -/
theorem text?_mistyped (hnull : v ≠ .null) (htext : ∀ s, v ≠ .string (some s)) :
    text? (some v) = none := by
  cases v with
  | null => exact absurd rfl hnull
  | string s? =>
    cases s? with
    | none => rfl
    | some s => exact absurd rfl (htext s)
  | bool | number | array | object => rfl

/-- The three fields of a handshake are read one after the other. -/
theorem Handshake.of_fields {ready? : Option Bool} {version fatal : Option Json} {h : Handshake}
    (hread : (do pure ⟨← ready?, ← text? version, ← text? fatal⟩ : Option Handshake) = some h) :
    ready? = some h.ready ∧ text? version = some h.version? ∧ text? fatal = some h.fatal? := by
  obtain ⟨ready, hready, hread⟩ := Option.bind_eq_some_iff.mp hread
  obtain ⟨version?, hversion, hread⟩ := Option.bind_eq_some_iff.mp hread
  obtain ⟨fatal?, hfatal, hread⟩ := Option.bind_eq_some_iff.mp hread
  obtain rfl := Option.some.inj hread
  exact ⟨hready, hversion, hfatal⟩

/-- An object that is read as a handshake has each field at most once, and of its type. -/
theorem Handshake.ofJson?_object {h : Handshake} (hread : ofJson? (.object members) = some h) :
    (∀ name ∈ ["ready", "version", "fatal"], members.countP (·.1 == some name) ≤ 1) ∧
      (members.lookup (some "ready") = none ∧ h.ready = false ∨
        members.lookup (some "ready") = some (.bool h.ready)) ∧
      text? (members.lookup (some "version")) = some h.version? ∧
      text? (members.lookup (some "fatal")) = some h.fatal? := by
  unfold ofJson? at hread
  obtain ⟨values, hvalues, hread⟩ := Option.bind_eq_some_iff.mp hread
  unfold fields? at hvalues
  dsimp only at hvalues
  split at hvalues
  · next hkeys =>
    obtain rfl := Option.some.inj hvalues
    have honce := List.all_eq_true.mp (Bool.and_eq_true_iff.mp hkeys).2
    refine ⟨fun name hname ↦ of_decide_eq_true (honce name hname), ?_⟩
    simp only [List.map_cons, List.map_nil] at hread
    cases hready : members.lookup (some "ready") with
    | none =>
      rw [hready] at hread
      obtain ⟨hfalse, htexts⟩ := of_fields hread
      exact ⟨Or.inl ⟨rfl, (Option.some.inj hfalse).symm⟩, htexts⟩
    | some v =>
      rw [hready] at hread
      obtain ⟨hbool, htexts⟩ := of_fields hread
      exact ⟨Or.inr (congrArg some (bool?_eq_some_iff.mp hbool)), htexts⟩
  · exact nomatch hvalues

/-- An array that is read as a handshake holds its three fields. -/
theorem Handshake.ofJson?_array {items : List Json} {h : Handshake}
    (hread : ofJson? (.array items) = some h) : items.length = 3 := by
  unfold ofJson? at hread
  obtain ⟨values, hvalues, -⟩ := Option.bind_eq_some_iff.mp hread
  unfold fields? at hvalues
  dsimp only at hvalues
  split at hvalues
  · next hlength =>
    have hbounds := Bool.and_eq_true_iff.mp hlength
    exact Nat.le_antisymm (of_decide_eq_true hbounds.2) (of_decide_eq_true hbounds.1)
  · exact nomatch hvalues

end

/-- A line beside the matter is idle, whether it is JSON or not. -/
theorem idle_of_beside {text : String} (h : ∀ v, Json.parse? text = some v → Beside v) :
    Idle (.line text) := by
  intro handshake hdecode
  obtain ⟨v, hparse, hread⟩ := Option.bind_eq_some_iff.mp hdecode
  have hbeside := h v hparse
  cases hbeside with
  | null => exact nomatch hread
  | bool b => exact nomatch hread
  | number n => exact nomatch hread
  | string text? => exact nomatch hread
  | array items hlength =>
    exact absurd (Handshake.ofJson?_array hread) hlength
  | stranger members hstrange =>
    obtain ⟨-, hready, -, hfatal⟩ := Handshake.ofJson?_object hread
    rw [lookup_of_strange fun m hm ↦ (hstrange m hm).1] at hready
    rw [lookup_of_strange fun m hm ↦ (hstrange m hm).2] at hfatal
    refine ⟨(Option.some.inj hfatal).symm, ?_⟩
    rcases hready with ⟨-, hready⟩ | hready
    · exact hready
    · exact nomatch hready
  | mistypedReady members v hmem hv =>
    obtain ⟨honce, hready, -, -⟩ := Handshake.ofJson?_object hread
    rw [lookup_of_mem (honce "ready" (by simp)) hmem] at hready
    rcases hready with ⟨hnone, -⟩ | hbool
    · exact nomatch hnone
    · exact absurd (Option.some.inj hbool) (hv _)
  | mistypedText members name v hname hmem hnull htext =>
    obtain ⟨honce, -, hversion, hfatal⟩ := Handshake.ofJson?_object hread
    have hnone : text? (members.lookup (some name)) = none := by
      have honce' : members.countP (·.1 == some name) ≤ 1 := by
        rcases hname with rfl | rfl
        · exact honce "version" (by simp)
        · exact honce "fatal" (by simp)
      rw [lookup_of_mem honce' hmem]
      exact text?_mistyped hnull htext
    rcases hname with rfl | rfl
    · exact nomatch hnone.symm.trans hversion
    · exact nomatch hnone.symm.trans hfatal

end FenceLint.Harness
