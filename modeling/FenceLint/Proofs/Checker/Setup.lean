import FenceLint.Proofs.Checker.Service

/-!
The setup of the parser. A checker calls its factory for the first block that it meets and never
again once it has a parser or a setup error, so in the record of a run at most the last call is of
such a kind, and every document with blocks goes by that last call.
-/

set_option autoImplicit false

namespace FenceLint

variable {ω π : Type}

/-- A visit to a text with blocks checks them under the number that the text gets. -/
theorem Visit.run_blocks (b : Backend ω π) (v : Visit ω π) (hblocks : v.blocks ≠ []) :
    ∃ block rest, v.blocks = block :: rest ∧
      let r := (Scene.checkBlocks b v.before.checker.documents v.source (block :: rest)
        (.empty v.source)).run v.before.numbered
      v.result b = r.value ∧ v.after b = r.state := by
  obtain ⟨block, rest, hcons⟩ : ∃ block rest, v.blocks = block :: rest :=
    List.exists_cons_of_ne_nil hblocks
  refine ⟨block, rest, hcons, ?_⟩
  rw [← hcons]
  exact Scene.checkText_blocks b v.source hblocks

/-- A call of the factory that leaves the checker without a parser and free to call again. -/
def Passing (call : Option Error) : Prop := ∃ e, call = some e ∧ ∀ message, e ≠ .setup message

/-- How far setup has come, by the calls of the factory so far: only the last of them can have given
a parser or a setup error. -/
inductive Stage : Option (Nat × π) → Option String → List (Option Error) → Prop
  | pending (calls : List (Option Error)) (hcalls : ∀ call ∈ calls, Passing call) :
      Stage none none calls
  | ready (calls : List (Option Error)) (p : π) (hcalls : ∀ call ∈ calls, Passing call) :
      Stage (some (calls.length, p)) none (calls ++ [none])
  | failed (calls : List (Option Error)) (message : String)
      (hcalls : ∀ call ∈ calls, Passing call) :
      Stage none (some message) (calls ++ [some (.setup message)])

/-- A call that fails ends setup or leaves it as it was, as the kind of error decides. -/
theorem Stage.drew_error {calls : List (Option Error)} (hcalls : ∀ call ∈ calls, Passing call)
    (e : Error) : Stage (none : Option (Nat × π)) e.stickyMessage? (calls ++ [some e]) := by
  have passing (he : ∀ message, e ≠ .setup message) :
      ∀ call ∈ calls ++ [some e], Passing call := by
    intro call hcall
    rcases List.mem_append.mp hcall with hcall | hcall
    · exact hcalls call hcall
    · exact ⟨e, List.mem_singleton.mp hcall, he⟩
  cases e with
  | setup message => exact .failed calls message hcalls
  | _ => exact .pending _ (passing nofun)

/-- What becomes of a document with these blocks, by the calls of the factory before it: what is
asked while it is checked, and what it comes to. -/
inductive Course (limit : Option Duration) (source : String) (blocks : List Block) :
    List (Option Error) → List Event → Except Error Report → Prop
  /-- The parser of the last call tries every block once, in order, and the report tells what it
  finds. -/
  | served (calls : List (Option Error)) (during : List Event) (checked : List CheckedBlock)
      (hcalls : ∀ call ∈ calls, Passing call)
      (hblocks : checked.map CheckedBlock.block = blocks)
      (htrials : Trials calls.length limit checked during) :
      Course limit source blocks (calls ++ [none]) during (.ok (.ofBlocks source checked))
  /-- The setup error of the last call is met again. -/
  | refused (calls : List (Option Error)) (message : String)
      (hcalls : ∀ call ∈ calls, Passing call) :
      Course limit source blocks (calls ++ [some (.setup message)]) [] (.error (.setup message))
  /-- A new call gives a parser, which tries every block once, in order, and the report tells what it
  finds. -/
  | opened (calls : List (Option Error)) (during : List Event) (checked : List CheckedBlock)
      (hcalls : ∀ call ∈ calls, Passing call)
      (hblocks : checked.map CheckedBlock.block = blocks)
      (htrials : Trials calls.length limit checked during) :
      Course limit source blocks calls (.drew none :: during) (.ok (.ofBlocks source checked))
  /-- A new call fails, and the document with it. -/
  | failed (calls : List (Option Error)) (e : Error) (hcalls : ∀ call ∈ calls, Passing call) :
      Course limit source blocks calls [.drew (some e)] (.error e)

theorem Event.draws_append (events later : List Event) :
    draws (events ++ later) = draws events ++ draws later := List.filterMap_append

/-- What concerns a parser is no call of the factory. -/
theorem Event.draws_concerning {number : Nat} {during : List Event}
    (h : ∀ e ∈ during, e.Concerns number) : draws during = [] := by
  refine List.filterMap_eq_nil_iff.mpr fun e he ↦ ?_
  have hconcerns := h e he
  rcases e with error? | ⟨parser, answer⟩ | ⟨parser, code, limit, answer⟩
  · exact hconcerns.elim
  · rfl
  · rfl

/-- A watched checker that has come as far as its record says. -/
structure Staged (make : Act ω (Except Error π)) (s : Scene (Watched ω) (Nat × π)) : Prop where
  supply : s.checker.supply = .factory (watchedFactory make)
  stage : Stage s.checker.parser? s.checker.setupError? (Event.draws s.world.events)

section

variable {make : Act ω (Except Error π)} {s t : Scene (Watched ω) (Nat × π)} {during : List Event}
  {checked : List CheckedBlock}

/-- The stage stays while a parser is at work. -/
theorem Staged.attended {calls : List (Option Error)}
    (hsupply : s.checker.supply = .factory (watchedFactory make))
    (herror : s.checker.setupError? = none)
    (hdraws : Event.draws s.world.events = calls ++ [none])
    (hcalls : ∀ call ∈ calls, Passing call)
    (h : Scene.Attended calls.length s t checked during) :
    Staged make t := by
  obtain ⟨p', hchecker⟩ := h.checker
  constructor
  · rw [hchecker]
    exact hsupply
  · rw [hchecker, h.events, Event.draws_append, Event.draws_concerning h.trials.concerns, hdraws,
      List.append_nil]
    show Stage (some (calls.length, p')) s.checker.setupError? (calls ++ [none])
    rw [herror]
    exact .ready calls p' hcalls

variable (b : Backend ω π)

section

variable (hsupply : s.checker.supply = .factory (watchedFactory make))
  (hparser : s.checker.parser? = none) (herror : s.checker.setupError? = none)
  (hcalls : ∀ call ∈ Event.draws s.world.events, Passing call)
  (document : Nat) (source : String) (block : Block) (rest : List Block) (report : Report)

include hsupply hparser herror hcalls

/-- A call of the factory that fails is the last that the blocks see. -/
theorem checkBlocks_drew_error {e : Error} (hmake : (make.run s.world.world).value = .error e) :
    let r := (Scene.checkBlocks b.watched document source (block :: rest) report).run s
    r.value = .error e ∧ r.state.world.events = s.world.events ++ [.drew (some e)] ∧
      Staged make r.state := by
  intro r
  obtain ⟨hchecker, hworld⟩ := Scene.kept_frame document source block s
  let kept := Scene.kept document source block s
  obtain ⟨hvalue, hevents, hset⟩ := Scene.parser_drew_error (s := kept) (hchecker ▸ herror)
    (hchecker ▸ hparser) (hchecker ▸ hsupply) (hworld ▸ hmake)
  rw [hworld] at hevents
  rw [hchecker] at hset
  obtain ⟨hlast, hr⟩ := Scene.checkBlocks_unparsed b.watched document source block s rest report hvalue
  have hadded : r.state.world.events = s.world.events ++ [.drew (some e)] := hr ▸ hevents
  refine ⟨hlast, hadded, ?_, ?_⟩
  · rw [hr, hset]
    exact hsupply
  · rw [hadded, Event.draws_append, hr, hset]
    show Stage s.checker.parser? e.stickyMessage? (Event.draws s.world.events ++ [some e])
    rw [hparser]
    exact .drew_error hcalls e

/-- A call of the factory that gives a parser serves all blocks. -/
theorem checkBlocks_drew_ok {p : π} (hmake : (make.run s.world.world).value = .ok p) :
    let r := (Scene.checkBlocks b.watched document source (block :: rest) report).run s
    ∃ checked during, r.value = .ok (checked.foldl Report.push report) ∧
      checked.map CheckedBlock.block = block :: rest ∧
      r.state.world.events = s.world.events ++ .drew none :: during ∧
      Trials (Event.draws s.world.events).length s.checker.limit checked during ∧
      Staged make r.state := by
  intro r
  obtain ⟨hchecker, hworld⟩ := Scene.kept_frame document source block s
  let kept := Scene.kept document source block s
  obtain ⟨hvalue, hevents, hset⟩ := Scene.parser_drew_ok (s := kept) (hchecker ▸ herror)
    (hchecker ▸ hparser) (hchecker ▸ hsupply) (hworld ▸ hmake)
  rw [hworld] at hvalue hevents hset
  rw [hchecker] at hset
  obtain ⟨checked, during, hanswer, hblocks, hattended⟩ := Scene.checkBlocks_parsed b document
    source block s rest report hvalue (by rw [hset]; exact herror)
  have htrials := hattended.trials
  rw [hset] at htrials
  refine ⟨checked, during, hanswer, hblocks, ?_, htrials, ?_⟩
  · rw [hattended.events, hevents, List.append_assoc]
    rfl
  · refine .attended ?_ ?_ ?_ hcalls hattended
    · rw [hset]
      exact hsupply
    · rw [hset]
      exact herror
    · rw [hevents, Event.draws_append]
      rfl

end

/-- The first block finds a parser or fails, and this decides for all blocks. -/
theorem checkBlocks_course (h : Staged make s) (document : Nat) (source : String) (block : Block)
    (rest : List Block) :
    let r := (Scene.checkBlocks b.watched document source (block :: rest) (.empty source)).run s
    ∃ during, r.state.world.events = s.world.events ++ during ∧
      Course s.checker.limit source (block :: rest) (Event.draws s.world.events) during r.value ∧
      Staged make r.state := by
  intro r
  obtain ⟨hsupply, hstage⟩ := h
  generalize hparser : s.checker.parser? = parser? at hstage
  generalize herror : s.checker.setupError? = setupError? at hstage
  generalize hdraws : Event.draws s.world.events = draws at hstage
  rcases hstage with ⟨_, hcalls⟩ | ⟨calls, p, hcalls⟩ | ⟨calls, message, hcalls⟩
  · rw [← hdraws] at hcalls ⊢
    rcases hmake : (make.run s.world.world).value with e | p
    · obtain ⟨hvalue, hevents, hstaged⟩ := checkBlocks_drew_error b hsupply hparser herror hcalls
        document source block rest _ hmake
      refine ⟨[.drew (some e)], hevents, ?_, hstaged⟩
      show Course _ _ _ _ _ r.value
      rw [hvalue]
      exact .failed _ e hcalls
    · obtain ⟨checked, during, hvalue, hblocks, hevents, htrials, hstaged⟩ := checkBlocks_drew_ok b
        hsupply hparser herror hcalls document source block rest _ hmake
      refine ⟨.drew none :: during, hevents, ?_, hstaged⟩
      show Course _ _ _ _ _ r.value
      rw [hvalue]
      exact .opened _ during checked hcalls hblocks htrials
  · obtain ⟨checked, during, hvalue, hblocks, hattended⟩ :=
      Scene.checkBlocks_ready b document source s (block :: rest) _ herror hparser
    refine ⟨during, hattended.events, ?_, .attended hsupply herror hdraws hcalls hattended⟩
    show Course _ _ _ _ _ r.value
    rw [hvalue]
    exact .served calls during checked hcalls hblocks hattended.trials
  · obtain ⟨hchecker, hworld⟩ := Scene.kept_frame document source block s
    obtain ⟨hvalue, hstate⟩ := Scene.parser_failed (s := Scene.kept document source block s)
      (hchecker ▸ herror)
    obtain ⟨hlast, hend⟩ := Scene.checkBlocks_unparsed b.watched document source block s rest
      (.empty source) hvalue
    have hr : r.state = Scene.kept document source block s := hend.trans hstate
    refine ⟨[], ?_, ?_, ?_, ?_⟩
    · rw [hr, hworld, List.append_nil]
    · show Course _ _ _ _ _ r.value
      rw [hlast]
      exact .refused calls message hcalls
    · rw [hr, hchecker]
      exact hsupply
    · rw [hr, hchecker, hworld, hparser, herror, hdraws]
      exact .failed calls message hcalls

/-- A visit to a text with blocks takes its course. -/
theorem Visit.course {v : Visit (Watched ω) (Nat × π)} (h : Staged make v.before)
    (hblocks : v.blocks ≠ []) :
    ∃ during, (v.after b.watched).world.events = v.before.world.events ++ during ∧
      Course v.before.checker.limit v.source v.blocks (Event.draws v.before.world.events) during
        (v.result b.watched) ∧
      Staged make (v.after b.watched) := by
  obtain ⟨block, rest, hcons, hvalue, hstate⟩ := v.run_blocks b.watched hblocks
  rw [hvalue, hstate, hcons]
  have hnumbered : Staged make v.before.numbered := ⟨h.supply, h.stage⟩
  exact checkBlocks_course b hnumbered _ v.source block rest

/-- Every visit leaves a checker as far as its record says. -/
theorem Visit.staged (v : Visit (Watched ω) (Nat × π)) (h : Staged make v.before) :
    Staged make (v.after b.watched) := by
  by_cases hblocks : v.blocks = []
  · rw [after, (Scene.checkText_empty b.watched v.source hblocks).2]
    exact h
  · obtain ⟨during, -, -, hstaged⟩ := v.course b h hblocks
    exact hstaged

/-- A document that fails has had nothing validated. -/
theorem Course.error {limit : Option Duration} {source : String} {blocks : List Block}
    {calls : List (Option Error)} {result : Except Error Report}
    (h : Course limit source blocks calls during result) {e : Error} (hresult : result = .error e) :
    ∀ event ∈ during, ∃ error?, event = .drew error? := by
  rcases h with ⟨_, _, checked, _, _, _⟩ | ⟨_, _, _⟩ | ⟨_, _, checked, _, _, _⟩ | ⟨_, e', _⟩
  · exact nomatch hresult
  · intro event hevent
    exact absurd hevent List.not_mem_nil
  · exact nomatch hresult
  · intro event hevent
    exact ⟨some e', List.mem_singleton.mp hevent⟩

end

/-- A checker never holds both a parser and a setup error. -/
def Checker.Exclusive (c : Checker ω π) : Prop := c.parser? = none ∨ c.setupError? = none

theorem Staged.exclusive {make : Act ω (Except Error π)} {s : Scene (Watched ω) (Nat × π)}
    {t : Scene ω π} (h : Staged make s) (herases : Erases s t) : t.checker.Exclusive := by
  rw [Checker.Exclusive, ← herases.parser, ← herases.setupError]
  have hstage := h.stage
  generalize s.checker.parser? = parser? at hstage
  generalize s.checker.setupError? = setupError? at hstage
  generalize Event.draws s.world.events = calls at hstage
  rcases hstage with ⟨_, _⟩ | ⟨_, _, _⟩ | ⟨_, _, _⟩
  · exact .inl rfl
  · exact .inr rfl
  · exact .inl rfl

/-- A checker that has a parser, or one at hand. -/
structure AtHand (c : Checker ω π) : Prop where
  error : c.setupError? = none
  parser : (∃ p, c.parser? = some p) ∨ (c.parser? = none ∧ ∃ p, c.supply = .single (some p))

section

variable (b : Backend ω π)

/-- The first block finds the parser, which validates all blocks and stays. -/
theorem checkBlocks_atHand {s : Scene (Watched ω) (Nat × π)} (h : AtHand s.checker)
    (document : Nat) (source : String) (block : Block) (rest : List Block) (report : Report) :
    let r := (Scene.checkBlocks b.watched document source (block :: rest) report).run s
    (∃ report', r.value = .ok report') ∧ AtHand r.state.checker := by
  intro r
  obtain ⟨hchecker, -⟩ := Scene.kept_frame document source block s
  let kept := Scene.kept document source block s
  obtain ⟨number, p, hvalue, hset⟩ : ∃ number p, (Scene.parser.run kept).value = .ok (number, p) ∧
      (Scene.parser.run kept).state.checker.setupError? = none := by
    have herror : kept.checker.setupError? = none := hchecker ▸ h.error
    rcases h.parser with ⟨⟨number, p⟩, hparser⟩ | ⟨hparser, ⟨number, p⟩, hsupply⟩
    · obtain ⟨hvalue, hstate⟩ := Scene.parser_ready herror (hchecker ▸ hparser)
      refine ⟨number, p, hvalue, ?_⟩
      rw [hstate]
      exact herror
    · obtain ⟨hvalue, hstate⟩ := Scene.parser_taken herror (hchecker ▸ hparser)
        (hchecker ▸ hsupply)
      refine ⟨number, p, hvalue, ?_⟩
      rw [hstate]
      exact herror
  obtain ⟨checked, during, hanswer, -, hattended⟩ :=
    Scene.checkBlocks_parsed b document source block s rest report hvalue hset
  obtain ⟨p', hp'⟩ := hattended.checker
  refine ⟨⟨_, hanswer⟩, ?_, ?_⟩
  · rw [hp']
    exact hset
  · rw [hp']
    exact .inl ⟨(number, p'), rfl⟩

/-- A visit with a parser at hand gives a report, and the parser stays at hand. -/
theorem Visit.atHand (v : Visit (Watched ω) (Nat × π)) (h : AtHand v.before.checker) :
    (∃ report, v.result b.watched = .ok report) ∧ AtHand (v.after b.watched).checker := by
  by_cases hblocks : v.blocks = []
  · obtain ⟨hvalue, hstate⟩ := Scene.checkText_empty b.watched v.source hblocks
    rw [result, after, hvalue, hstate]
    exact ⟨⟨_, rfl⟩, h⟩
  · obtain ⟨block, rest, -, hvalue, hstate⟩ := v.run_blocks b.watched hblocks
    rw [hvalue, hstate]
    have hnumbered : AtHand v.before.numbered.checker := ⟨h.error, h.parser⟩
    exact checkBlocks_atHand b hnumbered _ v.source block rest _

end

/-- Setup is lazy, it happens at most once with success, and its failure stays. Every visit of a
watched run goes by the calls of the factory before it, a parser that is at hand then tries each
block of the text once, and a text without blocks changes nothing at all; no checker holds both a
parser and a setup error; and a checker with a parser at hand never fails. -/
theorem setup_lazy_sticky (b : Backend ω π) (language : String) (limit : Option Duration)
    (artifacts : Option Artifact.Dir) (area : Artifact.Area) (world : ω) (tasks : List Task) :
    (∀ make : Act ω (Except Error π),
      let start : Scene ω π :=
        ⟨{ Checker.new language limit make with artifacts }, area, world⟩
      List.Forall₂ (Visit.Mirrors b) (visits b.watched start.watched tasks)
        (visits b start tasks) ∧
      Follow b.watched start.watched (visits b.watched start.watched tasks)
        (afterTasks b.watched start.watched tasks) ∧
      (∀ v ∈ visits b.watched start.watched tasks,
        (v.blocks = [] → v.result b.watched = .ok (.empty v.source) ∧
          v.after b.watched = v.before) ∧
        (v.blocks ≠ [] → ∃ during,
          (v.after b.watched).world.events = v.before.world.events ++ during ∧
          Course limit v.source v.blocks (Event.draws v.before.world.events) during
            (v.result b.watched) ∧
          ∀ e, v.result b.watched = .error e → ∀ event ∈ during, ∃ error?, event = .drew error?)) ∧
      (∀ v ∈ visits b start tasks,
        v.before.checker.Exclusive ∧ (v.after b).checker.Exclusive) ∧
      (afterTasks b start tasks).checker.Exclusive) ∧
    (∀ parser : π,
      let start : Scene ω π :=
        ⟨{ Checker.withParser language limit parser with artifacts }, area, world⟩
      ∀ v ∈ visits b start tasks, ∃ report, v.result b = .ok report) := by
  constructor
  · intro make start
    have hstart : Erases start.watched start := erases_watched start
    have hmirrors : List.Forall₂ (Visit.Mirrors b) (visits b.watched start.watched tasks)
      (visits b start tasks) := visits_mirrors hstart tasks
    have hfollow := follow_visits (b := b.watched) start.watched tasks
    have hstaged : Staged make start.watched := ⟨rfl, .pending [] nofun⟩
    obtain ⟨hvisits, hend⟩ := hfollow.invariant (fun v ↦ v.staged b) hstaged
    have hlimits := (hfollow.invariant (P := fun s ↦ s.checker.limit = limit)
      (fun v h ↦ (v.settings b.watched).2.1.trans h) rfl).1
    refine ⟨hmirrors, hfollow, ?_, ?_, ?_⟩
    · intro v hv
      constructor
      · intro hblocks
        exact Scene.checkText_empty b.watched v.source hblocks
      · intro hblocks
        obtain ⟨during, hevents, hcourse, -⟩ := v.course b (hvisits v hv).1 hblocks
        rw [(hlimits v hv).1] at hcourse
        exact ⟨during, hevents, hcourse, fun e he ↦ hcourse.error he⟩
    · intro w hw
      obtain ⟨v, hv, hmirror⟩ := exists_partner hmirrors.flip w hw
      exact ⟨(hvisits v hv).1.exclusive hmirror.before, (hvisits v hv).2.exclusive hmirror.after⟩
    · exact hend.exclusive (Follow.erases hmirrors hfollow (follow_visits start tasks) hstart)
  · intro parser start w hw
    have hstart : Erases start.watched start := erases_watched start
    have hhand : AtHand start.watched.checker := ⟨rfl, .inr ⟨rfl, (0, parser), rfl⟩⟩
    obtain ⟨hvisits, -⟩ := (follow_visits (b := b.watched) start.watched tasks).invariant
      (P := fun s ↦ AtHand s.checker) (fun v h ↦ (v.atHand b h).2) hhand
    obtain ⟨v, hv, hmirror⟩ := exists_partner (visits_mirrors hstart tasks).flip w hw
    rw [← hmirror.result]
    exact (v.atHand b (hvisits v hv).1).1

end FenceLint
