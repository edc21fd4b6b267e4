import FenceLint.Proofs.Checker.Documents
import FenceLint.Proofs.Checker.Service

/-!
No block is lost, doubled or moved. Between the texts of a run and its reports stand the validations
of one parser: they are those of the blocks in order, each once, and each block has the verdict of
its own. With a parser that answers by the code alone a report is a function of its text.
-/

set_option autoImplicit false

namespace FenceLint

variable {ω π : Type}

section

variable {s : Scene ω π} {p : π} {w : ω}

/-- What is on offer is on offer under watch, where it has the number 0; drawing it is recorded. -/
theorem Scene.Offers.watched (h : s.Offers p w) : ∃ drawn,
    (drawn = [] ∨ drawn = [.drew none]) ∧ s.watched.Offers (0, p) ⟨w, drawn⟩ := by
  rcases s with ⟨⟨language, limit, supply, parser?, setupError?, artifacts, documents⟩, area, world⟩
  cases h with
  | served h =>
    obtain rfl : setupError? = none := h.error
    obtain rfl : parser? = some p := h.parser
    obtain rfl : world = w := h.world
    exact ⟨[], .inl rfl, .served ⟨rfl, rfl, rfl⟩⟩
  | drawn herror hparser hvalue hworld =>
    obtain rfl : setupError? = none := herror
    obtain rfl : parser? = none := hparser
    cases supply with
    | factory make =>
      change (make.run world).value = .ok p at hvalue
      change (make.run world).state = w at hworld
      refine ⟨[.drew none], .inr rfl, .drawn rfl rfl ?_ ?_⟩
      · change (make.run world).value.map ((0 : Nat), ·) = _
        rw [hvalue]
        rfl
      · change (⟨(make.run world).state, [] ++ [.drew (errorOf (make.run world).value)]⟩ :
          Watched ω) = _
        rw [hvalue, hworld]
        rfl
    | single held? =>
      cases held? with
      | none => exact nomatch hvalue
      | some q =>
        obtain rfl : q = p := Except.ok.inj hvalue
        obtain rfl : world = w := hworld
        exact ⟨[], .inl rfl, .drawn rfl rfl rfl rfl⟩

end

/-- Validations in a row under watch are as many trials. -/
theorem run_mapM_trials (b : Backend ω π) (limit : Option Duration) (number : Nat)
    (codes : List String) (p : π) (w : Watched ω) :
    let r := (codes.mapM (b.watched.validate limit)).run ((number, p), w)
    ∃ p' records, r.state.1 = (number, p') ∧ r.state.2.events = w.events ++ records.flatten ∧
      List.Forall₂ (fun tried during ↦ Trial number limit tried.1 tried.2 during)
        (codes.zip r.value) records := by
  induction codes generalizing p w with
  | nil => exact ⟨p, [], rfl, (List.append_nil _).symm, .nil⟩
  | cons code rest ih =>
    obtain ⟨hvalue, hstate⟩ :=
      Act.run_mapM_cons (b.watched.validate limit) ((number, p), w) code rest
    obtain ⟨p', during, hparser, hevents, htrial⟩ :=
      Scene.backend_validate_trial b number p limit code w
    generalize (b.watched.validate limit code).run ((number, p), w) = first
      at hvalue hstate hparser hevents htrial
    obtain ⟨p'', records, hparser', hevents', htrials⟩ := ih p' first.state.2
    rw [← hparser] at hparser' hevents' htrials
    refine ⟨p'', during :: records, ?_, ?_, ?_⟩
    · rw [hstate]
      exact hparser'
    · rw [hstate, List.flatten_cons, ← List.append_assoc, ← hevents]
      exact hevents'
    · rw [hvalue]
      exact .cons htrial htrials

/-- What a report says besides times and file names. -/
structure Findings where
  sourceFile : String
  totalBlocks : Nat
  validCount : Nat
  invalidCount : Nat
  /-- The blocks in order, each with the reason against it if there is one. -/
  blocks : List (Block × Option Reason)
  deriving DecidableEq

/-- A report without its times and file names. -/
def Report.findings (r : Report) : Findings :=
  ⟨r.sourceFile, r.totalBlocks, r.validCount, r.invalidCount,
    r.blocks.map fun c ↦ (c.block, c.verdict.reason?)⟩

/-- What a text comes to where `f` answers by the code. -/
def Findings.ofText (f : String → Except Failure Unit) (language source text : String) :
    Findings :=
  let blocks := (Fence.extract language text).map fun block ↦
    (block, Backend.reasonOf (f block.code))
  ⟨source, blocks.length, blocks.countP fun found ↦ found.2.isNone,
    blocks.countP fun found ↦ found.2.isSome, blocks⟩

/-- A counted report is told by its source and its blocks. -/
theorem Report.Counted.findings {r : Report} (h : r.Counted) {blocks : List (Block × Option Reason)}
    (hblocks : (r.blocks.map fun c ↦ (c.block, c.verdict.reason?)) = blocks) :
    r.findings = ⟨r.sourceFile, blocks.length, blocks.countP fun found ↦ found.2.isNone,
      blocks.countP fun found ↦ found.2.isSome, blocks⟩ := by
  subst hblocks
  have hvalid : r.validCount =
      (r.blocks.map fun c ↦ (c.block, c.verdict.reason?)).countP fun found ↦ found.2.isNone := by
    rw [h.valid, List.countP_map]
    rfl
  have hinvalid : r.invalidCount =
      (r.blocks.map fun c ↦ (c.block, c.verdict.reason?)).countP fun found ↦ found.2.isSome := by
    rw [h.invalid, List.countP_map]
    congr 1
    funext c
    exact Option.not_isNone _
  rw [Report.findings, h.total, hvalid, hinvalid, List.length_map]

section

variable (b : Backend ω π) {start : Scene ω π} {p : π} {w : ω}

/-- The record of a run that is offered a parser is one trial for each block, in order. -/
theorem exists_trials (h : start.Offers p w) (tasks : List Task) :
    ∃ drawn records, (drawn = [] ∨ drawn = [.drew none]) ∧
      (afterTasks b.watched start.watched tasks).world.events = drawn ++ records.flatten ∧
      List.Forall₂ (fun c during ↦ Trial 0 start.checker.limit c.block.code c.verdict during)
        ((visits b.watched start.watched tasks).flatMap (Visit.checked b.watched)) records := by
  obtain ⟨drawn, hdrawn, hoffers⟩ := h.watched
  have hfollow := follow_visits (b := b.watched) start.watched tasks
  have hblocks := hfollow.checked hoffers
  obtain ⟨hverdicts, hnone, hserved⟩ := hfollow.offered hoffers
  generalize hchecked :
    (visits b.watched start.watched tasks).flatMap (Visit.checked b.watched) = checked
    at hblocks hverdicts
  rw [← hblocks] at hverdicts hnone hserved
  by_cases hempty : checked = []
  · subst hempty
    refine ⟨[], [], .inl rfl, ?_, .nil⟩
    rw [hnone rfl]
    rfl
  · obtain ⟨p', records, -, hevents, htrials⟩ := run_mapM_trials b start.checker.limit 0
      ((checked.map CheckedBlock.block).map Block.code) p ⟨w, drawn⟩
    have hworld := (hserved (by simpa using hempty)).world
    refine ⟨drawn, records, hdrawn, ?_, ?_⟩
    · rw [hworld]
      exact hevents
    · change List.map _ checked = (List.mapM (b.watched.validate start.checker.limit) _ |>.run _).value
        at hverdicts
      rw [← hverdicts, List.map_map, List.zip_map', List.forall₂_map_left_iff] at htrials
      exact htrials

/-- With a parser that is always ready and answers by the code alone, a visit finds of each block
what the answer on its code tells. -/
theorem Visit.found_of_answers {v : Visit ω π} (h : v.before.Offers p w)
    {f : String → Except Failure Unit} (hready : ∀ s, (b.prepare.run s).value = .ok ())
    (hanswer : ∀ code s, ((b.parse code v.before.checker.limit).run s).value.1 = f code) :
    ((v.checked b).map fun c ↦ (c.block, c.verdict.reason?)) =
      v.blocks.map fun block ↦ (block, Backend.reasonOf (f block.code)) := by
  obtain ⟨-, hblocks, hverdicts, -⟩ := v.offered b h
  have hreasons : ((v.checked b).map fun c ↦ c.verdict.reason?) =
      v.blocks.map fun block ↦ Backend.reasonOf (f block.code) := by
    have hall := Backend.run_mapM_validate (p, w) hready hanswer (v.blocks.map Block.code)
    rw [← hverdicts, List.map_map, List.map_map] at hall
    exact hall
  calc ((v.checked b).map fun c ↦ (c.block, c.verdict.reason?))
      = ((v.checked b).map CheckedBlock.block).zip
          ((v.checked b).map fun c ↦ c.verdict.reason?) := List.zip_map'.symm
    _ = (v.blocks.map id).zip (v.blocks.map fun block ↦ Backend.reasonOf (f block.code)) := by
        rw [hblocks, hreasons, List.map_id]
    _ = v.blocks.map fun block ↦ (block, Backend.reasonOf (f block.code)) := List.zip_map'

/-- Visits that mirror one another report on the same blocks. -/
theorem flatMap_checked_mirrors {vs : List (Visit (Watched ω) (Nat × π))} {ws : List (Visit ω π)}
    (h : List.Forall₂ (Visit.Mirrors b) vs ws) :
    vs.flatMap (Visit.checked b.watched) = ws.flatMap (Visit.checked b) := by
  induction h with
  | nil => rfl
  | cons hvisit _ ih =>
    rw [List.flatMap_cons, List.flatMap_cons, ih, Visit.checked, hvisit.result, Visit.checked]

/-- Between the extraction and the reports no block is lost, doubled or moved. Every visit of a run
that is offered a parser gives a counted report on the blocks of its text in order; the validations
are those of the codes of all these blocks in order, each with the verdict that the report tells;
and the record shows one trial for each, which asks about the code when the parser gets ready. With
a parser that is always ready and answers by the code alone, what a report says is a function of the
source and the text. -/
theorem blocks_conserved (h : start.Offers p w) (tasks : List Task) :
    let vs := visits b start tasks
    let blocks := vs.flatMap Visit.blocks
    let checked := vs.flatMap (Visit.checked b)
    let tried := ((blocks.map Block.code).mapM (b.validate start.checker.limit)).run (p, w)
    (∀ v ∈ vs, ∃ report, v.result b = .ok report ∧ report.sourceFile = v.source ∧
      report.blocks = v.checked b ∧ report.Counted ∧
      report.blocks.map CheckedBlock.block = Fence.extract start.checker.language v.text) ∧
    (reports b start tasks).map Except.ok = vs.map (Visit.result b) ∧
    checked.map CheckedBlock.block = blocks ∧
    checked.map CheckedBlock.verdict = tried.value ∧
    (blocks ≠ [] → (afterTasks b start tasks).Served tried.state.1 tried.state.2) ∧
    (∃ drawn records, (drawn = [] ∨ drawn = [.drew none]) ∧
      (afterTasks b.watched start.watched tasks).world.events = drawn ++ records.flatten ∧
      List.Forall₂ (fun c during ↦ Trial 0 start.checker.limit c.block.code c.verdict during)
        checked records) ∧
    ∀ f : String → Except Failure Unit, (∀ s, (b.prepare.run s).value = .ok ()) →
      (∀ code s, ((b.parse code start.checker.limit).run s).value.1 = f code) →
      ∀ v ∈ vs, ∃ report, v.result b = .ok report ∧
        report.findings = Findings.ofText f start.checker.language v.source v.text := by
  intro vs blocks checked tried
  have hfollow := follow_visits (b := b) start tasks
  have hvisits := hfollow.offers h
  obtain ⟨hverdicts, -, hserved⟩ := hfollow.offered h
  have hreport : ∀ v ∈ vs, v.result b = .ok (.ofBlocks v.source (v.checked b)) ∧
      (v.checked b).map CheckedBlock.block = Fence.extract start.checker.language v.text := by
    intro v hv
    obtain ⟨hlanguage, -, p', w', hoffers⟩ := hvisits v hv
    obtain ⟨hresult, hblocks, -⟩ := v.offered b hoffers
    rw [← hlanguage]
    exact ⟨hresult, hblocks⟩
  refine ⟨?_, ?_, hfollow.checked h, hverdicts, hserved, ?_, ?_⟩
  · intro v hv
    obtain ⟨hresult, hblocks⟩ := hreport v hv
    refine ⟨_, hresult, ?_, ?_, Report.ofBlocks_counted _ _, ?_⟩
    · exact Report.ofBlocks_sourceFile _ _
    · exact Report.ofBlocks_blocks _ _
    · rw [Report.ofBlocks_blocks]
      exact hblocks
  · exact reports_visits fun v hv ↦ ⟨_, (hreport v hv).1⟩
  · have htrials := exists_trials b h tasks
    rwa [flatMap_checked_mirrors b (visits_mirrors (erases_watched start) tasks)] at htrials
  · intro f hready hanswer v hv
    obtain ⟨hresult, hblocks⟩ := hreport v hv
    obtain ⟨hlanguage, hlimit, p', w', hoffers⟩ := hvisits v hv
    have hfound := v.found_of_answers b hoffers hready (by rwa [hlimit])
    rw [← Report.ofBlocks_blocks v.source (v.checked b)] at hfound
    refine ⟨_, hresult, ?_⟩
    rw [(Report.ofBlocks_counted _ _).findings hfound, Report.ofBlocks_sourceFile, Findings.ofText,
      ← hlanguage]
    rfl

end

section

/-- A parser whose second start fails, and which knows one kind of diagram. The world counts the
starts. -/
def fickle : Backend Nat Unit where
  name _ := "fickle"
  prepare := fun s ↦
    ⟨if s.2 = 1 then .error (.crashed "cold") else .ok (), (s.1, s.2 + 1), []⟩
  parse code _ := fun s ↦
    ⟨(if code = "pie" then .ok () else .error (.rejected "no"), .zero), s, []⟩

/-- A checker that makes this parser when it needs one. -/
def fickleStart : Scene Nat Unit :=
  ⟨.new "mermaid" none (pure (.ok ())), .fresh "/tmp" fun _ ↦ "", 0⟩

/-- A text with two blocks, and a document with one after a document that is gone. -/
def fickleTasks : List Task :=
  [.text "a.md" "```mermaid\npie\n```\n```mermaid\npie\n```",
    .documents (fun path ↦ if path = "b.md" then .ok "```mermaid\nflow\n```" else .error .absent)
      ["gone.md", "b.md"]]

/-- Three blocks, three validations, and each block has the verdict of its own. -/
theorem blocks_conserved_fickle :
    fickleStart.Offers () 0 ∧
      let checked := (visits fickle fickleStart fickleTasks).flatMap (Visit.checked fickle)
      checked.map (fun c ↦ c.block.code) = ["pie", "pie", "flow"] ∧
      checked.map (fun c ↦ c.verdict.reason?.map Reason.text) =
        [none, some "parser failed: cold", some "no"] := by
  have hoffers : fickleStart.Offers () 0 := .drawn rfl rfl rfl rfl
  obtain ⟨-, -, hblocks, hverdicts, -⟩ := blocks_conserved fickle hoffers fickleTasks
  have hcodes : ((visits fickle fickleStart fickleTasks).flatMap Visit.blocks).map Block.code =
      ["pie", "pie", "flow"] := by decide +kernel
  refine ⟨hoffers, ?_, ?_⟩
  · rw [← hcodes, ← hblocks, List.map_map]
    rfl
  · rw [hcodes] at hverdicts
    have hreasons := congrArg (List.map fun v ↦ v.reason?.map Reason.text) hverdicts
    rw [List.map_map] at hreasons
    exact hreasons.trans (by decide +kernel)

end

end FenceLint
