import FenceLint.Proofs.Backend
import FenceLint.Proofs.Checker.Watch

/-!
What each step of a check can do, told once: getting the parser, a block, the blocks of a text, and
a text. Under watch, one parser does all the work from the first block that finds it.
-/

set_option autoImplicit false

namespace FenceLint

variable {ω π : Type}

/-- What one validation with its verdict asks of a parser: one that does not get ready is not asked
about the code. -/
inductive Trial (number : Nat) (limit : Option Duration) (code : String) :
    Verdict → List Event → Prop
  | unready (failure : Failure) : Trial number limit code
      (Backend.verdict (.error failure, .zero)) [.prepared number (.error failure)]
  | asked (answer : Except Failure Unit × Duration) : Trial number limit code
      (Backend.verdict answer) [.prepared number (.ok ()), .asked number code limit answer]

/-- A trial asks its parser and nobody else. -/
theorem Trial.concerns {number : Nat} {limit : Option Duration} {code : String} {verdict : Verdict}
    {during : List Event} (h : Trial number limit code verdict during) :
    ∀ e ∈ during, e.Concerns number := by
  cases h with
  | unready failure =>
    intro e he
    rw [List.mem_singleton.mp he]
    rfl
  | asked answer =>
    intro e he
    rcases List.mem_cons.mp he with rfl | he
    · rfl
    · rw [List.mem_singleton.mp he]
      rfl

/-- One trial for each of some blocks, in order, and each with the verdict on its block. -/
inductive Trials (number : Nat) (limit : Option Duration) : List CheckedBlock → List Event → Prop
  | nil : Trials number limit [] []
  | cons {c : CheckedBlock} {rest : List CheckedBlock} {during later : List Event}
    (h : Trial number limit c.block.code c.verdict during) (hrest : Trials number limit rest later) :
    Trials number limit (c :: rest) (during ++ later)

theorem Trials.concerns {number : Nat} {limit : Option Duration} {checked : List CheckedBlock}
    {during : List Event} (h : Trials number limit checked during) :
    ∀ e ∈ during, e.Concerns number := by
  induction h with
  | nil => exact fun e he ↦ absurd he List.not_mem_nil
  | cons h _ ih => exact List.forall_mem_append.mpr ⟨h.concerns, ih⟩

/-- The message of a setup error, which is the only kind of error that stays. -/
def Error.stickyMessage? : Error → Option String
  | setup message => some message
  | _ => none

namespace Scene

/-- The scene in which a block looks for its parser. -/
def kept (document : Nat) (source : String) (block : Block) (s : Scene ω π) : Scene ω π :=
  ((keepBlock document source block).run s).state

/-- Keeping a block touches nothing but the place for temporary directories. -/
theorem kept_frame (document : Nat) (source : String) (block : Block) (s : Scene ω π) :
    (kept document source block s).checker = s.checker ∧
      (kept document source block s).world = s.world := by
  simp only [kept, keepBlock, Act.run_bind, Act.run_get]
  rcases s.checker.artifacts with _ | dir
  · exact ⟨rfl, rfl⟩
  · simp only [onArea, Act.run_bind, Act.run_focus]
    rcases ((dir.writeBlock document source block).run s.area).value <;> exact ⟨rfl, rfl⟩

/-- The scene in which the blocks of a text are checked: the text has got its number. -/
def numbered (s : Scene ω π) : Scene ω π :=
  { s with checker := { s.checker with documents := s.checker.documents + 1 } }

section

variable {s : Scene ω π}

/-- A setup error stays. -/
theorem parser_failed {message : String} (h : s.checker.setupError? = some message) :
    (parser.run s).value = .error (.setup message) ∧ (parser.run s).state = s := by
  simp [parser, h]

/-- And so does a parser. -/
theorem parser_ready {p : π} (herror : s.checker.setupError? = none)
    (hparser : s.checker.parser? = some p) :
    (parser.run s).value = .ok p ∧ (parser.run s).state = s := by
  simp [parser, herror, hparser]

/-- Without either a parser at hand is taken. -/
theorem parser_taken {p : π} (herror : s.checker.setupError? = none)
    (hparser : s.checker.parser? = none) (hsupply : s.checker.supply = .single (some p)) :
    (parser.run s).value = .ok p ∧
    (parser.run s).state = { s with
      checker := { s.checker with supply := .single none, parser? := some p } } := by
  simp [parser, herror, hparser, draw, hsupply, setParser]

variable {make : Act ω (Except Error π)}

/-- Without either the factory is called. -/
theorem parser_pending (herror : s.checker.setupError? = none) (hparser : s.checker.parser? = none)
    (hsupply : s.checker.supply = .factory make) :
    (parser.run s).value = (make.run s.world).value ∧
    (parser.run s).state = { s with
      checker := { s.checker with
        parser? := match (make.run s.world).value with
          | .ok p => some p
          | .error _ => none
        setupError? := match (make.run s.world).value with
          | .ok _ => none
          | .error e => e.stickyMessage? }
      world := (make.run s.world).state } := by
  rcases s with ⟨⟨language, limit, supply, parser?, setupError?, artifacts, documents⟩, area, world⟩
  obtain rfl : setupError? = none := herror
  obtain rfl : parser? = none := hparser
  obtain rfl : supply = .factory make := hsupply
  rcases hmake : (make.run world).value with e | p
  · cases e <;> simp [parser, draw, onWorld, hmake, setSetupError, Error.stickyMessage?]
  · simp [parser, draw, onWorld, hmake, setParser]

variable (b : Backend ω π)

/-- A text without blocks changes nothing. -/
theorem checkText_empty (source : String) {text : String}
    (h : Fence.extract s.checker.language text = []) :
    ((checkText b source text).run s).value = .ok (.empty source) ∧
      ((checkText b source text).run s).state = s := by
  obtain ⟨hvalue, hstate⟩ := Fence.run_extraction s.checker.language text s
  simp [checkText, hvalue, hstate, h]

/-- A text with blocks gets the next number, and its blocks are checked. -/
theorem checkText_blocks (source : String) {text : String}
    (h : Fence.extract s.checker.language text ≠ []) :
    let r := (checkBlocks b s.checker.documents source (Fence.extract s.checker.language text)
      (.empty source)).run s.numbered
    ((checkText b source text).run s).value = r.value ∧
      ((checkText b source text).run s).state = r.state := by
  intro r
  obtain ⟨hvalue, hstate⟩ := Fence.run_extraction s.checker.language text s
  generalize hr : r = ran
  simp only [r, numbered] at hr
  rcases ran with ⟨e | report, t, items⟩ <;>
    simp [checkText, hvalue, hstate, h, nextDocument, hr]

end

section

variable (b : Backend ω π) (document : Nat) (source : String) (block : Block) (s : Scene ω π)

/-- A block that finds no parser is not validated, and is the last one. -/
theorem checkBlocks_unparsed {e : Error} (rest : List Block) (report : Report)
    (h : (parser.run (kept document source block s)).value = .error e) :
    let r := (checkBlocks b document source (block :: rest) report).run s
    r.value = .error e ∧
      r.state = (parser.run (kept document source block s)).state := by
  rw [kept] at h
  simp [checkBlocks, checkBlock, kept, h]

/-- A block that is validated goes into the report. -/
theorem checkBlocks_ok {checked : CheckedBlock} (rest : List Block) (report : Report)
    (h : ((checkBlock b document source block).run s).value = .ok checked) :
    let s' := ((checkBlock b document source block).run s).state
    let r := (checkBlocks b document source rest (report.push checked)).run s'
    ((checkBlocks b document source (block :: rest) report).run s).value = r.value ∧
      ((checkBlocks b document source (block :: rest) report).run s).state = r.state := by
  simp [checkBlocks, h]

end

/-- A stretch of a watched run in which one parser does all the work: it tries these blocks. -/
structure Attended (number : Nat) (s t : Scene (Watched ω) (Nat × π)) (checked : List CheckedBlock)
    (during : List Event) : Prop where
  checker : ∃ p, t.checker = { s.checker with parser? := some (number, p) }
  events : t.world.events = s.world.events ++ during
  trials : Trials number s.checker.limit checked during

/-- Where the stretch begins counts only by the checker and the record. -/
theorem Attended.congr {number : Nat} {s s' t : Scene (Watched ω) (Nat × π)}
    {checked : List CheckedBlock} {during : List Event} (h : Attended number s' t checked during)
    (hchecker : s'.checker = s.checker) (hworld : s'.world = s.world) :
    Attended number s t checked during where
  checker := hchecker ▸ h.checker
  events := hworld ▸ h.events
  trials := hchecker ▸ h.trials

/-- A block that is tried comes before those that are tried after it. -/
theorem Attended.cons {number : Nat} {s t u : Scene (Watched ω) (Nat × π)} {c : CheckedBlock}
    {checked : List CheckedBlock} {during later : List Event}
    (h : Attended number t u checked later)
    (hchecker : ∃ p, t.checker = { s.checker with parser? := some (number, p) })
    (hevents : t.world.events = s.world.events ++ during)
    (htrial : Trial number s.checker.limit c.block.code c.verdict during) :
    Attended number s u (c :: checked) (during ++ later) := by
  obtain ⟨p, hp⟩ := hchecker
  refine ⟨?_, ?_, .cons htrial ?_⟩
  · obtain ⟨p', hp'⟩ := h.checker
    refine ⟨p', ?_⟩
    rw [hp', hp]
  · rw [h.events, hevents, List.append_assoc]
  · have hlimit : t.checker.limit = s.checker.limit := by rw [hp]
    exact hlimit ▸ h.trials

section

/-- A call of the factory that fails. -/
theorem parser_drew_error {make : Act ω (Except Error π)} {s : Scene (Watched ω) (Nat × π)}
    {e : Error} (herror : s.checker.setupError? = none) (hparser : s.checker.parser? = none)
    (hsupply : s.checker.supply = .factory (watchedFactory make))
    (hmake : (make.run s.world.world).value = .error e) :
    (parser.run s).value = .error e ∧
      (parser.run s).state.world.events = s.world.events ++ [.drew (some e)] ∧
      (parser.run s).state.checker = { s.checker with setupError? := e.stickyMessage? } := by
  obtain ⟨hvalue, hstate⟩ := parser_pending herror hparser hsupply
  have hdrawn : (watchedFactory make).run s.world = ⟨.error e,
      ⟨(make.run s.world.world).state, s.world.events ++ [.drew (some e)]⟩,
      (make.run s.world.world).log⟩ := by
    simp only [run_watchedFactory, hmake]
    rfl
  rw [hvalue, hstate, hdrawn]
  refine ⟨rfl, rfl, ?_⟩
  simp only [hparser]

/-- A call of the factory that gives a parser. -/
theorem parser_drew_ok {make : Act ω (Except Error π)} {s : Scene (Watched ω) (Nat × π)}
    {p : π} (herror : s.checker.setupError? = none) (hparser : s.checker.parser? = none)
    (hsupply : s.checker.supply = .factory (watchedFactory make))
    (hmake : (make.run s.world.world).value = .ok p) :
    (parser.run s).value = .ok ((Event.draws s.world.events).length, p) ∧
      (parser.run s).state.world.events = s.world.events ++ [.drew none] ∧
      (parser.run s).state.checker = { s.checker with
        parser? := some ((Event.draws s.world.events).length, p) } := by
  obtain ⟨hvalue, hstate⟩ := parser_pending herror hparser hsupply
  have hdrawn : (watchedFactory make).run s.world =
      ⟨.ok ((Event.draws s.world.events).length, p),
        ⟨(make.run s.world.world).state, s.world.events ++ [.drew none]⟩,
        (make.run s.world.world).log⟩ := by
    simp only [run_watchedFactory, hmake]
    rfl
  rw [hvalue, hstate, hdrawn]
  refine ⟨rfl, rfl, ?_⟩
  simp only [herror]

variable (b : Backend ω π) (number : Nat) (p : π)

/-- A watched validation is one trial of its parser. -/
theorem backend_validate_trial (limit : Option Duration) (code : String) (w : Watched ω) :
    let r := (b.watched.validate limit code).run ((number, p), w)
    ∃ p' during, r.state.1 = (number, p') ∧ r.state.2.events = w.events ++ during ∧
      Trial number limit code r.value during := by
  intro r
  cases hready : (b.prepare.run (p, w.world)).value with
  | error failure =>
    obtain ⟨hvalue, hstate⟩ := b.watched.run_validate_unready limit code ((number, p), w) hready
    refine ⟨_, _, congrArg Prod.fst hstate, congrArg (fun s ↦ s.2.events) hstate, ?_⟩
    change Trial _ _ _ ((b.watched.validate limit code).run _).value _
    rw [hvalue, hready]
    exact .unready failure
  | ok _ =>
    obtain ⟨hvalue, hstate⟩ := b.watched.run_validate_ready limit code ((number, p), w) hready
    let asked := (b.parse code limit).run (b.prepare.run (p, w.world)).state
    have hevents : r.state.2.events =
        w.events ++ [.prepared number (.ok ()), .asked number code limit asked.value] := by
      have hadded := congrArg (fun s ↦ s.2.events) hstate
      simp only [Backend.run_watched_prepare, Backend.run_watched_parse, hready,
        List.append_assoc] at hadded
      exact hadded
    refine ⟨_, _, congrArg Prod.fst hstate, hevents, ?_⟩
    change Trial _ _ _ ((b.watched.validate limit code).run _).value _
    rw [hvalue]
    exact .asked asked.value

/-- A block that finds a parser is tried by it, and goes on with the verdict. -/
theorem checkBlock_ok (document : Nat) (source : String) (block : Block)
    (s : Scene (Watched ω) (Nat × π)) {number : Nat} {p : π}
    (h : (parser.run (kept document source block s)).value = .ok (number, p)) :
    let t := (parser.run (kept document source block s)).state
    let r := (checkBlock b.watched document source block).run s
    ∃ c during, r.value = .ok c ∧ c.block = block ∧
      (∃ p', r.state.checker = { t.checker with parser? := some (number, p') }) ∧
      r.state.world.events = t.world.events ++ during ∧
      Trial number t.checker.limit c.block.code c.verdict during := by
  intro t r
  obtain ⟨p', during, hparser, hevents, htrial⟩ :=
    backend_validate_trial b number p t.checker.limit block.code t.world
  generalize htried : (b.watched.validate t.checker.limit block.code).run ((number, p), t.world) =
    tried at hparser hevents htrial
  have hvalidate : ((validate b.watched (number, p) block.code).run t).value = tried.value ∧
      ((validate b.watched (number, p) block.code).run t).state = { t with
        checker := { t.checker with parser? := some (number, p') }
        world := tried.state.2 } := by
    simp [validate, htried, hparser]
  obtain ⟨hverdict, hstate⟩ := hvalidate
  have hchecked : r.value =
      .ok ⟨block, tried.value, ((keepBlock document source block).run s).value⟩ ∧
        r.state = ((validate b.watched (number, p) block.code).run t).state := by
    rw [← hverdict]
    simp only [r, t, kept] at h ⊢
    cases hvalid : ((validate b.watched (number, p) block.code).run
      (parser.run ((keepBlock document source block).run s).state).state).value.isValid <;>
    simp [checkBlock, h, hvalid]
  rw [hchecked.2, hstate]
  exact ⟨_, during, hchecked.1, rfl, ⟨p', rfl⟩, hevents, htrial⟩

variable (document : Nat) (source : String) (block : Block) (s : Scene (Watched ω) (Nat × π))
  (blocks : List Block)

/-- A parser that is set up tries all blocks. -/
theorem checkBlocks_ready {number : Nat} {p : π} (report : Report)
    (herror : s.checker.setupError? = none) (hparser : s.checker.parser? = some (number, p)) :
    let r := (checkBlocks b.watched document source blocks report).run s
    ∃ checked during, r.value = .ok (checked.foldl Report.push report) ∧
      checked.map CheckedBlock.block = blocks ∧ Attended number s r.state checked during := by
  induction blocks generalizing report s p with
  | nil =>
    refine ⟨[], [], rfl, rfl, ⟨p, ?_⟩, (List.append_nil _).symm, .nil⟩
    rw [← hparser]
    rfl
  | cons block rest ih =>
    obtain ⟨hchecker, hworld⟩ := kept_frame document source block s
    have hready := parser_ready (hchecker ▸ herror) (hchecker ▸ hparser)
    obtain ⟨c, during, hvalue, hblock, hfound, hevents, htrial⟩ :=
      checkBlock_ok b document source block s hready.1
    rw [hready.2, hchecker] at hfound
    rw [hready.2, hworld] at hevents
    rw [hready.2, hchecker] at htrial
    obtain ⟨p', hp'⟩ := hfound
    obtain ⟨hsame, hstate⟩ := checkBlocks_ok b.watched document source block s rest report hvalue
    obtain ⟨checked, later, hlast, hblocks, hattended⟩ :=
      ih ((checkBlock b.watched document source block).run s).state (report.push c)
        (by rw [hp']; exact herror) (by rw [hp'])
    refine ⟨c :: checked, during ++ later, hsame.trans hlast, ?_, ?_⟩
    · rw [List.map_cons, hblock, hblocks]
    · rw [hstate]
      exact hattended.cons ⟨p', hp'⟩ hevents htrial

/-- The parser that the first block finds tries all blocks. -/
theorem checkBlocks_parsed {number : Nat} {p : π} (rest : List Block) (report : Report)
    (h : (parser.run (kept document source block s)).value = .ok (number, p))
    (herror : (parser.run (kept document source block s)).state.checker.setupError? =
      none) :
    let r := (checkBlocks b.watched document source (block :: rest) report).run s
    ∃ checked during, r.value = .ok (checked.foldl Report.push report) ∧
      checked.map CheckedBlock.block = block :: rest ∧
      Attended number (parser.run (kept document source block s)).state r.state checked
        during := by
  intro r
  obtain ⟨c, during, hvalue, hblock, hfound, hevents, htrial⟩ :=
    checkBlock_ok b document source block s h
  obtain ⟨p', hp'⟩ := hfound
  obtain ⟨hsame, hstate⟩ := checkBlocks_ok b.watched document source block s rest report hvalue
  obtain ⟨checked, later, hlast, hblocks, hattended⟩ := checkBlocks_ready b document source
    ((checkBlock b.watched document source block).run s).state rest (report.push c)
    (by rw [hp']; exact herror) (by rw [hp'])
  refine ⟨c :: checked, during ++ later, hsame.trans hlast, ?_, ?_⟩
  · rw [List.map_cons, hblock, hblocks]
  · rw [← hstate] at hattended
    exact hattended.cons ⟨p', hp'⟩ hevents htrial

end

end Scene

end FenceLint
