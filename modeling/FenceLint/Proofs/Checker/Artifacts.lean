import FenceLint.Proofs.Checker.Documents
import FenceLint.Proofs.Checker.Files

/-!
Keeping blocks changes nothing but the file names. Two checkers that differ in their directories
alone, and in the place for them, stay so through every step (`Unfiled`), whatever becomes of the
writes: a block that cannot be kept goes on to its validation like any other. So a run that may get
another directory and another place for each of its calls comes to what the same run comes to
without any, and a name in a report tells that the write of that block worked (`Filed`).
-/

set_option autoImplicit false

namespace FenceLint

open Artifact

variable {ω π : Type}

/-- The block without the name of a file. -/
def CheckedBlock.unnamed (c : CheckedBlock) : CheckedBlock := { c with fileName? := none }

/-- The report without the names of files. -/
def Report.unnamed (r : Report) : Report := { r with blocks := r.blocks.map CheckedBlock.unnamed }

/-- The reports without the names of files. -/
def MultiReport.unnamed (m : MultiReport) : MultiReport :=
  { m with files := m.files.map Report.unnamed }

/-- What a call comes to. -/
inductive Reply
  | one (result : Except Error Report)
  | many (result : Except Error MultiReport)

namespace Reply

/-- The reply without the names of files. -/
def unnamed : Reply → Reply
  | one result => one (result.map Report.unnamed)
  | many result => many (result.map MultiReport.unnamed)

/-- How a call that is not in error ended. -/
def outcome? : Reply → Option Outcome
  | one result => result.toOption.map Report.outcome
  | many result => result.toOption.map MultiReport.outcome

/-- The reports on documents that a call gives. -/
def reports : Reply → List Report
  | one (.ok report) => [report]
  | many (.ok m) => m.files
  | one (.error _) | many (.error _) => []

end Reply

/-- What a call comes to in a scene. -/
def Task.reply (b : Backend ω π) (s : Scene ω π) : Task → Reply
  | .text source content => .one ((Scene.checkText b source content).run s).value
  | .document read path => .one ((Scene.checkDocument b read path).run s).value
  | .documents read paths => .many ((Scene.checkDocuments b read paths).run s).value

/-- What some calls come to. -/
def replies (b : Backend ω π) (s : Scene ω π) : List Task → List Reply
  | [] => []
  | task :: rest => task.reply b s :: replies b (task.after b s) rest

/-- A call, with the directory that the checker has for it and the place where directories are. What
each write meets is told by the place. -/
structure Turn where
  artifacts : Option Dir
  area : Area
  task : Task

/-- The scene as the call finds it. -/
def Turn.enter (turn : Turn) (s : Scene ω π) : Scene ω π :=
  ⟨{ s.checker with artifacts := turn.artifacts }, turn.area, s.world⟩

/-- What some calls come to, each with a directory and a place of its own. -/
def repliesUnder (b : Backend ω π) (s : Scene ω π) : List Turn → List Reply
  | [] => []
  | turn :: rest => turn.task.reply b (turn.enter s) ::
      repliesUnder b (turn.task.after b (turn.enter s)) rest

/-- The scene that these calls leave. -/
def afterTurns (b : Backend ω π) (s : Scene ω π) : List Turn → Scene ω π
  | [] => s
  | turn :: rest => afterTurns b (turn.task.after b (turn.enter s)) rest

/-- The scene with no directory for blocks. -/
def Scene.bare (s : Scene ω π) : Scene ω π :=
  { s with checker := { s.checker with artifacts := none } }

/-- Blocks that are kept one after the other, and the place as they find it and as they leave it. A
block has a name exactly when its own write works, and then the name that was written. -/
inductive Filed (nameOf : Block → String) :
    Option Dir → Area → List CheckedBlock → Area → Prop
  | nowhere {area : Area} {checked : List CheckedBlock} (h : ∀ c ∈ checked, c.fileName? = none) :
    Filed nameOf none area checked area
  | nil {dir : Dir} {area : Area} : Filed nameOf (some dir) area [] area
  | cons {dir : Dir} {area area' : Area} {c : CheckedBlock} {rest : List CheckedBlock}
    (hname : ∀ name, c.fileName? = some name ↔
      name = nameOf c.block ∧ (area.write dir.id (nameOf c.block) c.block.code).1 = .ok ())
    (hrest : Filed nameOf (some dir) (area.write dir.id (nameOf c.block) c.block.code).2 rest area') :
    Filed nameOf (some dir) area (c :: rest) area'

/-- The second scene is the first one with no directory for blocks and any place for it. -/
structure Unfiled (s t : Scene ω π) : Prop where
  checker : t.checker = { s.checker with artifacts := none }
  world : t.world = s.world

section Reports

variable (r : Report) (c : CheckedBlock)

theorem Report.unnamed_push : (r.push c).unnamed = r.unnamed.push c.unnamed := by
  rw [Report.unnamed, Report.push, List.map_append]
  rfl

theorem Summary.ofReports_unnamed (files : List Report) :
    Summary.ofReports (files.map Report.unnamed) = Summary.ofReports files := by
  rw [Summary.ofReports, List.foldl_map]
  rfl

theorem MultiReport.unnamed_ofReports (files : List Report) (failures : List FileFailure) :
    (MultiReport.ofReports files failures).unnamed =
      .ofReports (files.map Report.unnamed) failures := by
  rw [MultiReport.unnamed, MultiReport.ofReports, MultiReport.ofReports, Summary.ofReports_unnamed]

/-- No outcome depends on the names of files. -/
theorem Reply.outcome?_unnamed (reply : Reply) : reply.unnamed.outcome? = reply.outcome? := by
  cases reply with
  | one result => cases result <;> rfl
  | many result =>
    cases result with
    | error e => rfl
    | ok m =>
      have hfiles : (m.files.map Report.unnamed).map Report.outcome = m.files.map Report.outcome := by
        rw [List.map_map]
        rfl
      simp only [unnamed, outcome?, Except.map, Except.toOption, Option.map_some,
        MultiReport.outcome, MultiReport.unnamed, hfiles]

end Reports

section Steps

open Act Scene

/-- Where there is no directory nothing is kept, and keeping touches nothing but the place. -/
theorem keepBlock_unfiled (document : Nat) (source : String) (block : Block) :
    Related (Unfiled (ω := ω) (π := π)) (fun _ name? ↦ name? = none)
      (keepBlock document source block) (keepBlock document source block) := by
  intro s t hst
  obtain ⟨hchecker, hworld⟩ := kept_frame document source block s
  have hnone : t.checker.artifacts = none := by rw [hst.checker]
  have hrun : (keepBlock document source block).run t = ⟨none, t, []⟩ := by
    simp [keepBlock, hnone]
  rw [hrun]
  change Scene.checker ((keepBlock document source block).run s).state = _ at hchecker
  refine ⟨rfl, ?_, hst.world.trans hworld.symm⟩
  rw [hchecker]
  exact hst.checker

theorem draw_unfiled : Related (Unfiled (ω := ω) (π := π)) Eq draw draw := by
  apply Related.get_bind
  intro s t hst
  have hsupply : t.checker.supply = s.checker.supply := by rw [hst.checker]
  rw [hsupply]
  cases s.checker.supply with
  | factory make =>
    intro s t hst
    simp only [onWorld, run_focus, hst.world]
    exact ⟨trivial, hst.checker, rfl⟩
  | single parser? =>
    cases parser? with
    | none => exact .pure rfl
    | some p =>
      apply Related.bind (R := fun _ _ ↦ True)
      · apply Related.modify
        intro s t hst
        refine ⟨?_, hst.world⟩
        rw [hst.checker]
      · intro _ _ _
        exact .pure rfl

theorem parser_unfiled : Related (Unfiled (ω := ω) (π := π)) Eq parser parser := by
  apply Related.get_bind
  intro s t hst
  rw [hst.checker]
  dsimp only
  cases s.checker.setupError? with
  | some message => exact .pure rfl
  | none =>
    cases s.checker.parser? with
    | some p => exact .pure rfl
    | none =>
      apply Related.log_bind
      apply Related.bind draw_unfiled
      rintro drawn _ rfl
      have hnote {f : Scene ω π → Scene ω π} {x : Except Error π}
          (hf : ∀ s t, Unfiled s t → Unfiled (f s) (f t)) :
          Related Unfiled Eq (do modify f; pure x) (do modify f; pure x) :=
        .bind (.modify hf) fun _ _ _ ↦ .pure rfl
      cases drawn with
      | ok p =>
        refine hnote fun s t hst ↦ ⟨?_, hst.world⟩
        rw [hst.checker]
      | error e =>
        cases e with
        | setup message =>
          refine hnote fun s t hst ↦ ⟨?_, hst.world⟩
          rw [hst.checker]
        | _ => exact .pure rfl

variable (b : Backend ω π)

theorem validate_unfiled (p : π) (code : String) :
    Related (Unfiled (ω := ω) (π := π)) Eq (validate b p code) (validate b p code) := by
  apply Related.get_bind
  intro s t hst
  rw [hst.checker]
  intro s' t' hst'
  simp only [run_focus, hst'.world]
  refine ⟨trivial, ?_, rfl⟩
  rw [hst'.checker]

theorem checkBlock_unfiled (document : Nat) (source : String) (block : Block) :
    Related (Unfiled (ω := ω) (π := π)) (fun r r' ↦ r' = r.map CheckedBlock.unnamed)
      (checkBlock b document source block) (checkBlock b document source block) := by
  apply Related.bind (keepBlock_unfiled document source block)
  rintro name? _ rfl
  apply Related.bind parser_unfiled
  rintro found _ rfl
  cases found with
  | error e => exact .pure rfl
  | ok p =>
    apply Related.bind (validate_unfiled b p block.code)
    rintro verdict _ rfl
    cases verdict.isValid with
    | true => exact .pure rfl
    | false => exact .log_bind _ _ _ _ _ (.pure rfl)

theorem checkBlocks_unfiled (document : Nat) (source : String) (blocks : List Block)
    (report : Report) :
    Related (Unfiled (ω := ω) (π := π)) (fun r r' ↦ r' = r.map Report.unnamed)
      (checkBlocks b document source blocks report)
      (checkBlocks b document source blocks report.unnamed) := by
  induction blocks generalizing report with
  | nil => exact .pure rfl
  | cons block rest ih =>
    apply Related.bind (checkBlock_unfiled b document source block)
    rintro checked _ rfl
    cases checked with
    | error e => exact .pure rfl
    | ok c =>
      have hrest := ih (report.push c)
      rw [Report.unnamed_push] at hrest
      exact hrest

theorem checkText_unfiled (source text : String) :
    Related (Unfiled (ω := ω) (π := π)) (fun r r' ↦ r' = r.map Report.unnamed)
      (checkText b source text) (checkText b source text) := by
  apply Related.within
  apply Related.get_bind
  intro s t hst
  have hlanguage : t.checker.language = s.checker.language := by rw [hst.checker]
  rw [hlanguage]
  apply Related.bind (R := Eq)
  · intro s' t' hst'
    obtain ⟨hvalue, hstate⟩ := Fence.run_extraction s.checker.language text s'
    obtain ⟨hvalue', hstate'⟩ := Fence.run_extraction s.checker.language text t'
    rw [hvalue, hstate, hvalue', hstate']
    exact ⟨rfl, hst'⟩
  rintro blocks _ rfl
  cases blocks.isEmpty with
  | true => exact .log_bind _ _ _ _ _ (.pure rfl)
  | false =>
    apply Related.bind (R := Eq)
    · intro s t hst
      simp only [nextDocument, run_modifyGet]
      refine ⟨?_, ?_, hst.world⟩ <;> rw [hst.checker]
    rintro document _ rfl
    apply Related.bind (checkBlocks_unfiled b document source blocks (.empty source))
    rintro report _ rfl
    cases report with
    | error e => exact .pure rfl
    | ok report => exact .log_bind _ _ _ _ _ (.pure rfl)

variable (read : String → Except Fault String)

theorem checkDocument_unfiled (path : String) :
    Related (Unfiled (ω := ω) (π := π)) (fun r r' ↦ r' = r.map Report.unnamed)
      (checkDocument b read path) (checkDocument b read path) := by
  rw [checkDocument]
  cases read path with
  | error fault => exact .pure rfl
  | ok text => exact checkText_unfiled b path text

theorem checkEach_unfiled (paths : List String) (files : List Report)
    (failures : List FileFailure) :
    Related (Unfiled (ω := ω) (π := π)) (fun r r' ↦ r' = r.map MultiReport.unnamed)
      (checkEach b read paths files failures)
      (checkEach b read paths (files.map Report.unnamed) failures) := by
  induction paths generalizing files failures with
  | nil => exact .pure (congrArg Except.ok (MultiReport.unnamed_ofReports files failures).symm)
  | cons path rest ih =>
    apply Related.bind (checkDocument_unfiled b read path)
    rintro result _ rfl
    cases result with
    | ok report =>
      have hrest := ih (files ++ [report]) failures
      rw [List.map_append] at hrest
      exact hrest
    | error e =>
      dsimp only [Except.map]
      cases e.isFatal with
      | true => exact .pure rfl
      | false => exact .log_bind _ _ _ _ _ (ih _ _)

end Steps

section Runs

variable {b : Backend ω π} {s t : Scene ω π}

/-- A call without a directory comes to the same, and the scenes that it leaves are related again. -/
theorem Unfiled.reply (h : Unfiled s t) (task : Task) :
    task.reply b t = (task.reply b s).unnamed ∧ Unfiled (task.after b s) (task.after b t) := by
  cases task with
  | text source content =>
    obtain ⟨hvalue, hstate⟩ := checkText_unfiled b source content s t h
    exact ⟨congrArg Reply.one hvalue, hstate⟩
  | document read path =>
    obtain ⟨hvalue, hstate⟩ := checkDocument_unfiled b read path s t h
    exact ⟨congrArg Reply.one hvalue, hstate⟩
  | documents read paths =>
    obtain ⟨hvalue, hstate⟩ := (checkEach_unfiled b read paths [] []).within _ s t h
    exact ⟨congrArg Reply.many hvalue, hstate⟩

/-- And so does a run, whatever its calls find. -/
theorem Unfiled.replies (h : Unfiled s t) (turns : List Turn) :
    replies b t (turns.map Turn.task) = (repliesUnder b s turns).map Reply.unnamed ∧
      Unfiled (afterTurns b s turns) (afterTasks b t (turns.map Turn.task)) := by
  induction turns generalizing s t with
  | nil => exact ⟨rfl, h⟩
  | cons turn rest ih =>
    have hentered : Unfiled (turn.enter s) t := ⟨h.checker, h.world⟩
    obtain ⟨hreply, hafter⟩ := hentered.reply (b := b) turn.task
    obtain ⟨hrest, hend⟩ := ih hafter
    refine ⟨?_, hend⟩
    rw [List.map_cons, FenceLint.replies, repliesUnder, List.map_cons, hreply, hrest]

end Runs

section Names

/-- Names that are given as the blocks are filed are given to those whose writes work. -/
theorem filed_of_names {dir? : Option Dir} {document : Nat} {source : String} {area : Area}
    {checked : List CheckedBlock}
    (h : checked.map CheckedBlock.fileName? = (((checked.map CheckedBlock.block).mapM
      (fileBlock dir? document source)).run area).value) :
    Filed (fun block ↦ fileName document source block.index) dir? area checked
      (((checked.map CheckedBlock.block).mapM (fileBlock dir? document source)).run area).state := by
  induction checked generalizing area with
  | nil =>
    cases dir? with
    | none => exact .nowhere nofun
    | some dir => exact .nil
  | cons c rest ih =>
    obtain ⟨hvalue, hstate⟩ := Act.run_mapM_cons (fileBlock dir? document source) area c.block
      (rest.map CheckedBlock.block)
    rw [List.map_cons, List.map_cons, hvalue] at h
    rw [List.map_cons, hstate]
    obtain ⟨hname, hrest⟩ := List.cons.inj h
    cases dir? with
    | none =>
      have hfiled : Filed _ none area rest _ := ih hrest
      change Filed _ none area (c :: rest)
        (((rest.map CheckedBlock.block).mapM (fileBlock none document source)).run area).state
      generalize (((rest.map CheckedBlock.block).mapM (fileBlock none document source)).run
        area).state = area' at hfiled ⊢
      cases hfiled with
      | nowhere hnone => exact .nowhere (List.forall_mem_cons.mpr ⟨hname, hnone⟩)
    | some dir =>
      obtain ⟨hown, hleft⟩ := run_fileBlock dir document source c.block area
      have hfiled := ih hrest
      rw [hleft] at hfiled ⊢
      refine .cons (fun name ↦ ?_) hfiled
      rw [hname, hown]
      cases (area.write dir.id (fileName document source c.block.index) c.block.code).1 with
      | error fault => simp [Except.toOption]
      | ok => simp [Except.toOption, eq_comm]

variable (b : Backend ω π) (v : Visit ω π)

/-- A visit that gives a report files the blocks of its text. -/
theorem Visit.filed {report : Report} (h : v.result b = .ok report) :
    Filed v.nameOf v.before.checker.artifacts v.before.area report.blocks (v.after b).area := by
  cases hblocks : v.blocks with
  | nil =>
    obtain ⟨hresult, hafter⟩ := v.run_empty b hblocks
    obtain rfl : report = .empty v.source := Except.ok.inj (h.symm.trans hresult)
    rw [hafter]
    cases v.before.checker.artifacts with
    | none => exact .nowhere nofun
    | some dir => exact .nil
  | cons block rest =>
    obtain ⟨p, w, hoffers⟩ | ⟨e, herror, -⟩ := v.offered_or_refused b hblocks
    · obtain ⟨hresult, hchecked, -, hnames, harea, -⟩ := v.offered b hoffers
      have hreported : report.blocks = v.checked b := by
        rw [Except.ok.inj (h.symm.trans hresult), Report.ofBlocks_blocks]
      rw [← hchecked] at hnames harea
      rw [hreported, harea]
      exact filed_of_names hnames
    · exact nomatch h.symm.trans herror

/-- Documents that are checked in order give reports of visits, on top of those that were there. -/
theorem exists_visit_of_checkEach {b : Backend ω π} {read : String → Except Fault String}
    {paths : List String} {s : Scene ω π} {files : List Report} {failures : List FileFailure}
    {m : MultiReport} (h : ((Scene.checkEach b read paths files failures).run s).value = .ok m) :
    ∀ report ∈ m.files, report ∈ files ∨
      ∃ v ∈ Task.eachVisit b read paths s, v.result b = .ok report := by
  induction paths generalizing s files failures with
  | nil =>
    obtain rfl : MultiReport.ofReports files failures = m := Except.ok.inj h
    exact fun report hreport ↦ .inl hreport
  | cons path rest ih =>
    rw [Scene.checkEach] at h
    rw [Task.eachVisit]
    cases hread : read path with
    | error fault =>
      have hunread := Scene.run_checkDocument_unread b read hread s
      simp only [Act.run_bind, hunread, isFatal_ofReading] at h
      exact ih h
    | ok text =>
      have hvisit : (Scene.checkDocument b read path).run s =
          (Scene.checkText b path text).run s := by rw [Scene.checkDocument, hread]
      simp only [Act.run_bind, hvisit] at h
      dsimp only [Visit.result, Visit.after]
      cases hresult : ((Scene.checkText b path text).run s).value with
      | ok found =>
        rw [hresult] at h
        intro report hreport
        rcases ih h report hreport with hfiles | ⟨v, hv, hgiven⟩
        · rcases List.mem_append.mp hfiles with hold | hnew
          · exact .inl hold
          · obtain rfl := List.mem_singleton.mp hnew
            exact .inr ⟨_, List.mem_cons_self, hresult⟩
        · exact .inr ⟨v, List.mem_cons_of_mem _ hv, hgiven⟩
      | error e =>
        rw [hresult] at h
        cases hfatal : e.isFatal with
        | true =>
          simp only [hfatal] at h
          cases h
        | false =>
          simp only [hfatal] at h ⊢
          intro report hreport
          rcases ih h report hreport with hold | ⟨v, hv, hgiven⟩
          · exact .inl hold
          · exact .inr ⟨v, List.mem_cons_of_mem _ hv, hgiven⟩

theorem Reply.eq_of_mem_reports {result : Except Error Report} {report : Report}
    (h : report ∈ (Reply.one result).reports) : result = .ok report := by
  cases result with
  | error e => exact absurd h List.not_mem_nil
  | ok found => rw [List.mem_singleton.mp h]

/-- Every report in a reply is that of a visit of the call. -/
theorem Task.exists_visit {s : Scene ω π} {task : Task} {report : Report}
    (h : report ∈ (task.reply b s).reports) :
    ∃ v ∈ task.visits b s, v.result b = .ok report := by
  cases task with
  | text source content => exact ⟨_, List.mem_cons_self, Reply.eq_of_mem_reports h⟩
  | document read path =>
    have hvalue := Reply.eq_of_mem_reports h
    rw [Task.visits]
    cases hread : read path with
    | error fault =>
      rw [Scene.run_checkDocument_unread b read hread s] at hvalue
      cases hvalue
    | ok text =>
      rw [Scene.checkDocument, hread] at hvalue
      exact ⟨_, List.mem_cons_self, hvalue⟩
  | documents read paths =>
    rw [Task.reply, Scene.checkDocuments, Act.run_within] at h
    cases hvalue : ((Scene.checkEach b read paths [] []).run s).value with
    | error e =>
      rw [hvalue] at h
      exact absurd h List.not_mem_nil
    | ok m =>
      rw [hvalue] at h
      rcases exists_visit_of_checkEach hvalue report h with hnone | hvisit
      · exact absurd hnone List.not_mem_nil
      · exact hvisit

end Names

/-- Artifacts never influence results. A run whose calls find any directories in any state, with any
fault at any write, comes to what it comes to without a directory, up to the names of files: the
replies with their errors and outcomes, the world that the parsers leave, and all that is asked of
the factory and of the parsers. Of each visit that gives a report, a block has the name of its file
exactly when its own write worked. -/
theorem artifacts_inert (b : Backend ω π) (start : Scene ω π) (turns : List Turn) :
    (repliesUnder b start turns).map Reply.unnamed = replies b start.bare (turns.map Turn.task) ∧
    (repliesUnder b start turns).map Reply.outcome? =
      (replies b start.bare (turns.map Turn.task)).map Reply.outcome? ∧
    (afterTurns b start turns).world = (afterTasks b start.bare (turns.map Turn.task)).world ∧
    (afterTurns b.watched start.watched turns).world =
      (afterTasks b.watched start.bare.watched (turns.map Turn.task)).world ∧
    ∀ (turn : Turn) (s : Scene ω π),
      Follow b (turn.enter s) (turn.task.visits b (turn.enter s))
        (turn.task.after b (turn.enter s)) ∧
      (∀ report ∈ (turn.task.reply b (turn.enter s)).reports,
        ∃ v ∈ turn.task.visits b (turn.enter s), v.result b = .ok report) ∧
      ∀ v ∈ turn.task.visits b (turn.enter s), v.before.checker.artifacts = turn.artifacts ∧
        ∀ report, v.result b = .ok report →
          Filed v.nameOf turn.artifacts v.before.area report.blocks (v.after b).area := by
  have hbare : Unfiled start start.bare := ⟨rfl, rfl⟩
  have hwatched : Unfiled start.watched start.bare.watched := ⟨rfl, rfl⟩
  obtain ⟨hreplies, hworld⟩ := hbare.replies (b := b) turns
  obtain ⟨-, hevents⟩ := hwatched.replies (b := b.watched) turns
  refine ⟨hreplies.symm, ?_, hworld.world.symm, hevents.world.symm, fun turn s ↦ ?_⟩
  · rw [hreplies, List.map_map]
    exact List.map_congr_left fun reply _ ↦ reply.outcome?_unnamed.symm
  · have hfollow := turn.task.follow (b := b) (turn.enter s)
    refine ⟨hfollow, fun report ↦ Task.exists_visit b, fun v hv ↦ ?_⟩
    have hkept : ∀ v : Visit ω π, v.before.checker.artifacts = turn.artifacts →
        (v.after b).checker.artifacts = turn.artifacts :=
      fun v h ↦ (v.settings b).2.2.trans h
    have hfound := hfollow.invariant (P := fun u ↦ u.checker.artifacts = turn.artifacts) hkept rfl
    have hartifacts := (hfound.1 v hv).1
    refine ⟨hartifacts, fun report hreport ↦ ?_⟩
    rw [← hartifacts]
    exact v.filed b hreport

/-- A call that finds the directory gone at its first write and back at its second. -/
def flickering : Turn where
  artifacts := some ⟨0, "/tmp/mermaid-check-1"⟩
  area := { Area.fresh "/tmp" fun _ ↦ "1" with
    folders := [some []]
    fault? := fun write ↦ if write = 0 then some .absent else none }
  task := .text "a.md" "```mermaid\npie\n```\n```mermaid\nflow\n```"

example : ((repliesUnder obliging retrying [flickering, flickering]).flatMap Reply.reports).flatMap
    (fun report ↦ report.blocks.map CheckedBlock.fileName?) =
      [none, some "001-a-block-1.mmd"] := by
  decide +kernel

end FenceLint
