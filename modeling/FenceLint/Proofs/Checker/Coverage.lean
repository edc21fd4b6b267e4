import FenceLint.Proofs.Checker.Documents
import FenceLint.Proofs.Checker.Service

/-!
What the documents of a list come to when the checker is new. If the supply gives a parser, or no
document has a block, then the documents that can be read are reported on and the others are the
failures. If it does not and some document has a block, the error of the supply is the result of
that document.
-/

set_option autoImplicit false

namespace FenceLint

variable {ω π : Type}

/-- The blocks of the documents that can be read, in order. -/
def blocksOf (language : String) (read : String → Except Fault String) (paths : List String) :
    List Block :=
  (readTexts read paths).flatMap fun document ↦ Fence.extract language document.2

/-- Reports and failures that account for documents: every document that can be read is reported on,
with its blocks and their verdicts in order, and every other one is a failure. -/
structure Covers (language : String) (read : String → Except Fault String) (paths : List String)
    (verdicts : List Verdict) (files : List Report) (failures : List FileFailure) : Prop where
  counted : ∀ report ∈ files, report.Counted
  sources : files.map Report.sourceFile = (readTexts read paths).map Prod.fst
  blocks : (files.flatMap Report.blocks).map CheckedBlock.block = blocksOf language read paths
  verdicts : (files.flatMap Report.blocks).map CheckedBlock.verdict = verdicts
  failures : failures.map FileFailure.sourceFile = unreadPaths read paths

/-- Every report passes just when every verdict is in order. -/
theorem Covers.all_passed {language : String} {read : String → Except Fault String}
    {paths : List String} {verdicts : List Verdict} {files : List Report}
    {failures : List FileFailure} (h : Covers language read paths verdicts files failures) :
    files.all Report.passed = verdicts.all Verdict.isValid := by
  rw [Bool.eq_iff_iff, List.all_eq_true, List.all_eq_true, ← h.verdicts]
  constructor
  · intro hpassed verdict hverdict
    obtain ⟨c, hc, rfl⟩ := List.mem_map.mp hverdict
    obtain ⟨report, hreport, hblock⟩ := List.mem_flatMap.mp hc
    exact (h.counted report hreport).passed_iff.mp (hpassed report hreport) c hblock
  · intro hvalid report hreport
    refine (h.counted report hreport).passed_iff.mpr fun c hc ↦ hvalid c.verdict ?_
    exact List.mem_map_of_mem (List.mem_flatMap.mpr ⟨report, hreport, hc⟩)

namespace Scene

variable (b : Backend ω π) (read : String → Except Fault String) {s : Scene ω π}
  {paths : List String}

/-- The visits of documents are to texts that are read. -/
theorem mem_readTexts {v : Visit ω π} (h : v ∈ Task.eachVisit b read paths s) :
    (v.source, v.text) ∈ readTexts read paths := by
  induction paths generalizing s with
  | nil => exact absurd h List.not_mem_nil
  | cons path rest ih =>
    have hmore (t : Scene ω π) (hv : v ∈ Task.eachVisit b read rest t) :
        (v.source, v.text) ∈ readTexts read (path :: rest) := by
      have hrest := ih hv
      rw [readTexts, List.filterMap_cons]
      split
      · exact hrest
      · exact List.mem_cons_of_mem _ hrest
    cases hread : read path with
    | error fault =>
      simp only [Task.eachVisit, hread] at h
      exact hmore s h
    | ok text =>
      simp only [Task.eachVisit, hread] at h
      rcases List.mem_cons.mp h with rfl | h
      · exact List.mem_filterMap.mpr ⟨path, List.mem_cons_self, by rw [hread]; rfl⟩
      · split at h
        · exact hmore _ h
        · split at h
          · exact absurd h List.not_mem_nil
          · exact hmore _ h

/-- The language stays the same. -/
theorem language_of_visit {v : Visit ω π} (h : v ∈ Task.eachVisit b read paths s) :
    v.before.checker.language = s.checker.language := by
  let P (u : Scene ω π) : Prop := u.checker.language = s.checker.language
  have hstep : ∀ v : Visit ω π, P v.before → P (v.after b) := by
    intro v hv
    exact (v.settings b).1.trans hv
  have hstart : P s := rfl
  exact (((follow_eachVisit read paths s [] []).invariant hstep hstart).1 v h).1

/-- Where every visit gives a report, the blocks visited are those of the documents. -/
theorem blocks_of_visits
    (h : ∀ v ∈ Task.eachVisit b read paths s, ∃ report, v.result b = .ok report) :
    (Task.eachVisit b read paths s).flatMap Visit.blocks =
      blocksOf s.checker.language read paths := by
  obtain ⟨-, -, htexts, -⟩ := reportsOf_visits b read h
  rw [blocksOf, ← htexts, List.flatMap_map]
  refine List.flatMap_congr fun v hv ↦ ?_
  rw [Visit.blocks, language_of_visit b read hv]

/-- Visits that all give the report on their text cover the documents. -/
theorem covers_of_visits
    (h : ∀ v ∈ Task.eachVisit b read paths s, v.result b = .ok (.ofBlocks v.source (v.checked b)) ∧
      (v.checked b).map CheckedBlock.block = v.blocks) :
    let tried := attempts b read s paths
    let checked := (Task.eachVisit b read paths s).flatMap (Visit.checked b)
    (∀ a ∈ tried, a.isFatal = false) ∧ Covers s.checker.language read paths
      (checked.map CheckedBlock.verdict) (reportsOf tried) (failuresOf tried) := by
  intro tried checked
  have hresults : ∀ v ∈ Task.eachVisit b read paths s, ∃ report, v.result b = .ok report :=
    fun v hv ↦ ⟨_, (h v hv).1⟩
  obtain ⟨hfatal, hreports, htexts, hfailures⟩ := reportsOf_visits b read hresults
  have hfiles : reportsOf tried = (Task.eachVisit b read paths s).map fun v ↦
      Report.ofBlocks v.source (v.checked b) := by
    have hinjective : Function.Injective (Except.ok : Report → Except Error Report) := by
      intro r r' hsame
      exact Except.ok.inj hsame
    refine List.map_injective_iff.mpr hinjective (hreports.trans ?_)
    rw [List.map_map]
    exact List.map_congr_left fun v hv ↦ (h v hv).1
  have hchecked : (reportsOf tried).flatMap Report.blocks = checked := by
    rw [hfiles, List.flatMap_map]
    exact List.flatMap_congr fun v _ ↦ Report.ofBlocks_blocks _ _
  refine ⟨hfatal, ?_, ?_, ?_, ?_, hfailures⟩
  · rw [hfiles]
    intro report hreport
    obtain ⟨v, -, rfl⟩ := List.mem_map.mp hreport
    exact Report.ofBlocks_counted _ _
  · rw [hfiles, ← htexts, List.map_map, List.map_map]
    exact List.map_congr_left fun v _ ↦ Report.ofBlocks_sourceFile _ _
  · rw [hchecked, List.map_flatMap, ← blocks_of_visits b read hresults]
    exact List.flatMap_congr fun v hv ↦ (h v hv).2
  · rw [hchecked]

/-- With a parser on offer every visit gives the report on its text. -/
theorem Offers.visits {p : π} {w : ω} (h : s.Offers p w) :
    ∀ v ∈ Task.eachVisit b read paths s, v.result b = .ok (.ofBlocks v.source (v.checked b)) ∧
      (v.checked b).map CheckedBlock.block = v.blocks := by
  intro v hv
  obtain ⟨-, -, p', w', hmet⟩ := (follow_eachVisit read paths s [] []).offers h v hv
  obtain ⟨hresult, hchecked, -⟩ := v.offered b hmet
  exact ⟨hresult, hchecked⟩

theorem Offers.blocks {p : π} {w : ω} (h : s.Offers p w) :
    (Task.eachVisit b read paths s).flatMap Visit.blocks =
      blocksOf s.checker.language read paths :=
  blocks_of_visits b read fun v hv ↦ ⟨_, (h.visits b read v hv).1⟩

/-- And all blocks are validated by it. -/
theorem Offers.covers {p : π} {w : ω} (h : s.Offers p w) :
    let tried := attempts b read s paths
    let blocks := blocksOf s.checker.language read paths
    let verdicts := ((blocks.map Block.code).mapM (b.validate s.checker.limit)).run (p, w)
    (∀ a ∈ tried, a.isFatal = false) ∧ Covers s.checker.language read paths verdicts.value
      (reportsOf tried) (failuresOf tried) := by
  intro tried blocks verdicts
  obtain ⟨hfatal, hcovers⟩ := covers_of_visits b read (h.visits b read)
  have hverdicts := ((follow_eachVisit (b := b) read paths s [] []).offered h).1
  rw [h.blocks b read] at hverdicts
  exact ⟨hfatal, hverdicts ▸ hcovers⟩

/-- The world is left as validating the blocks leaves it. -/
theorem Offers.world {p : π} {w : ω} {t : Scene ω π} (h : s.Offers p w)
    (hfollow : Follow b s (Task.eachVisit b read paths s) t)
    (hblocks : blocksOf s.checker.language read paths ≠ []) :
    let codes := (blocksOf s.checker.language read paths).map Block.code
    t.world = ((codes.mapM (b.validate s.checker.limit)).run (p, w)).state.2 := by
  intro codes
  have hserved := (hfollow.offered h).2.2
  rw [h.blocks b read] at hserved
  exact (hserved hblocks).world

/-- Where no document has a block, no visit finds one. -/
theorem visits_empty (h : blocksOf s.checker.language read paths = []) :
    ∀ v ∈ Task.eachVisit b read paths s, v.blocks = [] := by
  intro v hv
  rw [Visit.blocks, language_of_visit b read hv]
  exact List.flatMap_eq_nil_iff.mp h (v.source, v.text) (mem_readTexts b read hv)

/-- Visits without blocks change nothing. -/
theorem follow_empty {vs : List (Visit ω π)} {t : Scene ω π} (hfollow : Follow b s vs t)
    (h : ∀ v ∈ vs, v.blocks = []) : t = s := by
  induction vs generalizing s with
  | nil => exact hfollow.symm
  | cons v rest ih =>
    obtain ⟨rfl, hrest⟩ := hfollow
    obtain ⟨hfirst, hothers⟩ := List.forall_mem_cons.mp h
    exact (ih hrest hothers).trans (v.run_empty b hfirst).2

/-- Without blocks nothing is validated, whatever the supply gives. -/
theorem covers_of_no_blocks (h : blocksOf s.checker.language read paths = []) :
    let tried := attempts b read s paths
    (∀ a ∈ tried, a.isFatal = false) ∧
      Covers s.checker.language read paths [] (reportsOf tried) (failuresOf tried) := by
  intro tried
  have hempty := visits_empty b read h
  have hvisits : ∀ v ∈ Task.eachVisit b read paths s,
      v.result b = .ok (.ofBlocks v.source (v.checked b)) ∧
        (v.checked b).map CheckedBlock.block = v.blocks := by
    intro v hv
    obtain ⟨hresult, -⟩ := v.run_empty b (hempty v hv)
    have hchecked : v.checked b = [] := by
      rw [Visit.checked, hresult]
      rfl
    rw [hresult, hchecked, hempty v hv]
    exact ⟨rfl, rfl⟩
  obtain ⟨hfatal, hcovers⟩ := covers_of_visits b read hvisits
  have hnone : (reportsOf tried).flatMap Report.blocks = [] :=
    List.map_eq_nil_iff.mp (hcovers.blocks.trans h)
  refine ⟨hfatal, hcovers.counted, hcovers.sources, hcovers.blocks, ?_, hcovers.failures⟩
  rw [hnone]
  rfl

/-- A checker whose supply fails for good: it has not been tried in this world, or its message is
kept in the world that it has left. -/
structure Barred (make : Act ω (Except Error π)) (w : ω) (s : Scene ω π) : Prop where
  parser : s.checker.parser? = none
  supply : s.checker.supply = .factory make
  tried : (s.checker.setupError? = none ∧ s.world = w) ∨
    (s.checker.setupError? ≠ none ∧ s.world = (make.run w).state)

/-- Such a checker stays one, so that its supply is tried once at most. -/
theorem Barred.after {make : Act ω (Except Error π)} {w : ω} {message : String}
    (hmake : (make.run w).value = .error (.setup message)) {v : Visit ω π}
    (h : v.before.Barred make w) : (v.after b).Barred make w := by
  cases hblocks : v.blocks with
  | nil =>
    rw [(v.run_empty b hblocks).2]
    exact h
  | cons block rest =>
    have hne : Fence.extract v.before.checker.language v.text ≠ [] :=
      hblocks.trans_ne (List.cons_ne_nil block rest)
    let found := kept v.before.checker.documents v.source block v.before.numbered
    obtain ⟨hchecker, hworld⟩ :=
      kept_frame v.before.checker.documents v.source block v.before.numbered
    have hsupply : found.checker.supply = .factory make :=
      (congrArg Checker.supply hchecker).trans h.supply
    have hparser : found.checker.parser? = none :=
      (congrArg Checker.parser? hchecker).trans h.parser
    have hafter {e : Error} (hvalue : (Scene.parser.run found).value = .error e) :
        v.after b = (Scene.parser.run found).state := by
      rw [Visit.after, (checkText_blocks b v.source hne).2]
      change Fence.extract v.before.checker.language v.text = block :: rest at hblocks
      rw [hblocks]
      exact (checkBlocks_unparsed b v.before.checker.documents v.source block v.before.numbered
        rest (.empty v.source) hvalue).2
    obtain ⟨herror, hmet⟩ | ⟨herror, hleft⟩ := h.tried
    · obtain ⟨hvalue, hstate⟩ :=
        parser_pending ((congrArg Checker.setupError? hchecker).trans herror) hparser hsupply
      have hmet : found.world = w := hworld.trans hmet
      rw [hmet, hmake] at hvalue hstate
      rw [hafter hvalue, hstate]
      exact ⟨rfl, hsupply, .inr ⟨Option.some_ne_none message, rfl⟩⟩
    · obtain ⟨kept, hkept⟩ := Option.ne_none_iff_exists'.mp herror
      obtain ⟨hvalue, hstate⟩ :=
        parser_failed ((congrArg Checker.setupError? hchecker).trans hkept)
      rw [hafter hvalue, hstate]
      have hstays : found.checker.setupError? ≠ none :=
        (congrArg Checker.setupError? hchecker).trans_ne herror
      exact ⟨hparser, hsupply, .inr ⟨hstays, hworld.trans hleft⟩⟩

/-- A supply that fails makes the first document with blocks fail. -/
theorem exists_attempt_of_refusal {make : Act ω (Except Error π)} {e : Error}
    (hparser : s.checker.parser? = none) (herror : s.checker.setupError? = none)
    (hsupply : s.checker.supply = .factory make) (hmake : (make.run s.world).value = .error e)
    (h : blocksOf s.checker.language read paths ≠ []) :
    ∃ a ∈ attempts b read s paths, a.result = .error e := by
  induction paths with
  | nil => exact absurd rfl h
  | cons path rest ih =>
    -- Up to that document nothing changes, so the others meet the scene as it is.
    have hmore (hstate : ((checkDocument b read path).run s).state = s)
        (hrest : blocksOf s.checker.language read rest ≠ []) :
        ∃ a ∈ attempts b read s (path :: rest), a.result = .error e := by
      obtain ⟨a, ha, hresult⟩ := ih hrest
      refine ⟨a, ?_, hresult⟩
      rw [attempts, hstate]
      exact List.mem_cons_of_mem _ ha
    cases hread : read path with
    | error fault =>
      refine hmore (by rw [run_checkDocument_unread b read hread]) fun hnone ↦ h ?_
      rw [blocksOf, readTexts, List.filterMap_cons_none (by rw [hread]; rfl)]
      exact hnone
    | ok text =>
      have hvisit : checkDocument b read path = checkText b path text := by
        rw [checkDocument, hread]
      cases hblocks : Fence.extract s.checker.language text with
      | nil =>
        refine hmore (by rw [hvisit, (checkText_empty b path hblocks).2]) fun hnone ↦ h ?_
        rw [blocksOf, readTexts, List.filterMap_cons_some (by rw [hread]; rfl), List.flatMap_cons,
          hblocks]
        exact hnone
      | cons block others =>
        obtain ⟨hchecker, hworld⟩ := kept_frame s.checker.documents path block s.numbered
        obtain ⟨hvalue, -⟩ := parser_pending ((congrArg Checker.setupError? hchecker).trans herror)
          ((congrArg Checker.parser? hchecker).trans hparser)
          ((congrArg Checker.supply hchecker).trans hsupply)
        have hfound : (parser.run (kept s.checker.documents path block s.numbered)).value =
            .error e := by
          rw [hvalue, hworld]
          exact hmake
        obtain ⟨hlast, -⟩ := checkBlocks_unparsed b s.checker.documents path block s.numbered others
          (.empty path) hfound
        refine ⟨_, List.mem_cons_self, ?_⟩
        change ((checkDocument b read path).run s).value = .error e
        rw [hvisit, (checkText_blocks b path (hblocks.trans_ne (List.cons_ne_nil _ _))).1, hblocks]
        exact hlast

end Scene

end FenceLint
