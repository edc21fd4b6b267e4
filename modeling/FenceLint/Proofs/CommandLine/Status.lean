import FenceLint.Proofs.CommandLine.Output
import FenceLint.Proofs.CommandLine.Stages
import FenceLint.Proofs.Engine.Progress

/-!
The status of a check, by what there is to check: something keeps the run from being carried out,
some block is invalid, or neither. The documents are covered by the verdicts of the engine, so the
answer has the status of its case, and what is printed of it shows that status
(`check_ends`). The check stalls the machine just where the work on the blocks does
(`check_stalled`), and it leaves all directories alone but its own (`check_spares`).
-/

set_option autoImplicit false

namespace FenceLint

namespace CommandLine

section

variable (site : Site) (o : Options) (area : Artifact.Area) (machine : Engine.Machine)

/-- The blocks of the targets that can be read. -/
def blocksIn (t : Targets) : List Block := blocksOf o.language site.disk.readText t.documents

/-- The work of an engine on these blocks in order, from where its setup has left the machine. -/
def workOn (t : Targets) (engine : Engine) : Ran (Engine × Engine.Machine) (List Verdict) :=
  (((blocksIn site o t).map Block.code).mapM (Engine.backend.validate o.limit)).run
    (engine, ((Engine.setup site (o.engine site)).run machine).state)

/-- The verdicts of the engine on these blocks, if it can be set up. -/
def verdictsOn (t : Targets) : List Verdict :=
  match ((Engine.setup site (o.engine site)).run machine).value with
  | .ok engine => (workOn site o machine t engine).value
  | .error _ => []

variable {site o machine} in
theorem verdictsOn_of_setup {engine : Engine} {t : Targets}
    (h : ((Engine.setup site (o.engine site)).run machine).value = .ok engine) :
    verdictsOn site o machine t = (workOn site o machine t engine).value := by
  rw [verdictsOn, h]

/-- What keeps a run from being carried out. -/
inductive Hindered : Prop
  | unresolved (e : Error)
    (h : Targets.resolve site.disk o.inputs o.dir? o.recursive = .error e)
  | refused (fault : Fault) (h : area.refusal? = some fault)
  | unready (t : Targets) (ht : Targets.resolve site.disk o.inputs o.dir? o.recursive = .ok t)
    (hblocks : blocksIn site o t ≠ []) (e : Error)
    (h : ((Engine.setup site (o.engine site)).run machine).value = .error e)
  | unread (t : Targets) (ht : Targets.resolve site.disk o.inputs o.dir? o.recursive = .ok t)
    (path : String) (hpath : path ∈ t.documents) (fault : Fault)
    (h : site.disk.readText path = .error fault)

/-- The run never comes to an end: it gets as far as asking about the blocks, and some request for
one of them is never answered. -/
inductive Hangs : Prop
  | unanswered (t : Targets) (ht : Targets.resolve site.disk o.inputs o.dir? o.recursive = .ok t)
    (hrefusal : area.refusal? = none) (engine : Engine)
    (hengine : ((Engine.setup site (o.engine site)).run machine).value = .ok engine)
    (hstalled : (workOn site o machine t engine).state.2.stalled = true)

/-- Some block of the targets is invalid. -/
def Faulty : Prop :=
  ∃ t, Targets.resolve site.disk o.inputs o.dir? o.recursive = .ok t ∧
    ∃ verdict ∈ verdictsOn site o machine t, verdict.isValid = false

/-- A report as it is printed, with the exit status that it shows. -/
inductive Printed (t : Targets) (verdicts : List Verdict) : Nat → String → Prop
  | single (report : Report) (output : String) (hsingle : t.single = true)
    (hcovers : Covers o.language site.disk.readText t.documents verdicts [report] [])
    (hwritten : Written (o.ink site) (report.shown o.quiet) report.toJson ReportRecord.read?
      report.record (o.reportFormat true) output) :
    Printed t verdicts (if 0 < report.invalidCount then 1 else 0) output
  | several (multi : MultiReport) (output : String) (hsingle : t.single = false)
    (hcovers :
      Covers o.language site.disk.readText t.documents verdicts multi.files multi.failures)
    (hsums : multi.summary.Sums multi.files)
    (hwritten : Written (o.ink site) (multi.shown o.quiet) multi.toJson CollectionRecord.read?
      multi.record (o.reportFormat false) output) :
    Printed t verdicts
      (if multi.failures ≠ [] then 2 else if 0 < multi.summary.totalInvalid then 1 else 0) output

/-- An answer with the status of its case, which shows in what is printed of it. -/
structure Ends (value : Except Error (Outcome × String)) : Prop where
  hindered : Hindered site o area machine → statusOf value = 2
  faulty : ¬Hindered site o area machine → Faulty site o machine → statusOf value = 1
  sound : ¬Hindered site o area machine → ¬Faulty site o machine → statusOf value = 0
  printed : ∀ answer, value = .ok answer →
    ∃ t, Targets.resolve site.disk o.inputs o.dir? o.recursive = .ok t ∧
      Printed site o t (verdictsOn site o machine t) answer.1.exitCode answer.2

variable {site o area machine}

theorem Ends.of_error (h : Hindered site o area machine) (e : Error) :
    Ends site o area machine (.error e) where
  hindered _ := rfl
  faulty hnot := absurd h hnot
  sound hnot := absurd h hnot
  printed := nofun

/-- The status tells which of the three cases it is. -/
theorem Ends.iff {value : Except Error (Outcome × String)} (h : Ends site o area machine value) :
    (statusOf value = 2 ↔ Hindered site o area machine) ∧
      (statusOf value = 1 ↔ ¬Hindered site o area machine ∧ Faulty site o machine) ∧
      (statusOf value = 0 ↔ ¬Hindered site o area machine ∧ ¬Faulty site o machine) := by
  by_cases hhindered : Hindered site o area machine
  · simp [hhindered, h.hindered hhindered]
  · by_cases hfaulty : Faulty site o machine
    · simp [hhindered, hfaulty, h.faulty hhindered hfaulty]
    · simp [hhindered, hfaulty, h.sound hhindered hfaulty]

end

section

variable {site : Site} {o : Options} {t : Targets} {tried : List Attempt}
  {value : Except Error (Outcome × String)}

/-- The status of a report is that of its blocks. -/
theorem exitCode_report_passed (report : Report) :
    report.outcome.exitCode = if report.passed then 0 else 1 := by
  rw [Report.outcome]
  cases report.passed with
  | true => rfl
  | false => rfl

/-- The status of several reports is that of the failures, and otherwise that of the reports. -/
theorem exitCode_multi_passed (files : List Report) (failures : List FileFailure) :
    (MultiReport.ofReports files failures).outcome.exitCode =
      if failures ≠ [] then 2 else if files.all Report.passed then 0 else 1 := by
  by_cases hfailures : failures = []
  · rw [if_neg (not_not_intro hfailures), MultiReport.outcome_of_no_failures hfailures]
    change (if files.all Report.passed then Outcome.passed else .invalid).exitCode = _
    cases files.all Report.passed with
    | true => rfl
    | false => rfl
  · rw [if_pos hfailures, MultiReport.outcome_of_failures hfailures]
    rfl

/-- The counter that a report shows gives its status. -/
theorem exitCode_report (report : Report) :
    report.outcome.exitCode = if 0 < report.invalidCount then 1 else 0 := by
  rw [exitCode_report_passed, Report.passed]
  by_cases h : report.invalidCount = 0
  · rw [h]
    rfl
  · rw [if_neg (by simpa using h), if_pos (Nat.pos_of_ne_zero h)]

/-- The failures and the total that several reports show give their status. -/
theorem exitCode_multi (files : List Report) (failures : List FileFailure) :
    let multi := MultiReport.ofReports files failures
    multi.outcome.exitCode =
      if multi.failures ≠ [] then 2 else if 0 < multi.summary.totalInvalid then 1 else 0 := by
  intro multi
  rw [MultiReport.outcome_ofReports, apply_ite Outcome.exitCode, apply_ite Outcome.exitCode]
  rfl

/-- What a check answers that has no fatal error. -/
theorem Answer.covered {verdicts : List Verdict} (h : Answer site o t tried value)
    (hfatal : ∀ a ∈ tried, a.isFatal = false)
    (hcovers : Covers o.language site.disk.readText t.documents verdicts (reportsOf tried)
      (failuresOf tried)) :
    (statusOf value = if failuresOf tried ≠ [] then 2
      else if verdicts.all Verdict.isValid then 0 else 1) ∧
    ∀ answer, value = .ok answer →
      Printed site o t verdicts answer.1.exitCode answer.2 := by
  have hpassed := hcovers.all_passed
  cases h with
  | single report hsingle hfiles hfailures =>
    rw [hfiles, hfailures] at hcovers
    rw [hfiles, List.all_cons, List.all_nil, Bool.and_true] at hpassed
    refine ⟨?_, ?_⟩
    · rw [if_neg (not_not_intro hfailures), ← hpassed]
      exact exitCode_report_passed report
    · rintro answer ⟨⟩
      rw [exitCode_report]
      exact .single report _ hsingle hcovers (written_reportText site o true report)
  | several hsingle hnone =>
    refine ⟨?_, ?_⟩
    · rw [← hpassed]
      exact exitCode_multi_passed _ _
    · rintro answer ⟨⟩
      rw [exitCode_multi]
      exact .several _ _ hsingle hcovers (Summary.ofReports_sums _) (written_multiText site o false _)
  | failed e h =>
    have hfailures : failuresOf tried ≠ [] := by
      obtain ⟨a, ha, hisFatal⟩ | ⟨-, hfailures⟩ := h
      · exact absurd hisFatal (by rw [hfatal a ha]; exact Bool.false_ne_true)
      · exact hfailures
    refine ⟨?_, ?_⟩
    · rw [if_pos hfailures]
      rfl
    · intro answer hanswer
      cases hanswer

/-- A fatal error is the answer. -/
theorem Answer.fatal (h : Answer site o t tried value) (hfatal : ∃ a ∈ tried, a.isFatal = true) :
    ∃ e, value = .error e := by
  obtain ⟨a, ha, hisFatal⟩ := hfatal
  cases h with
  | single report hsingle hfiles hfailures =>
    have hnone := List.filterMap_eq_nil_iff.mp hfailures a ha
    rcases a with ⟨path, e | report⟩
    · exact nomatch hnone
    · exact nomatch hisFatal
  | several hsingle hnone => exact absurd hisFatal (by rw [hnone a ha]; exact Bool.false_ne_true)
  | failed e h => exact ⟨e, rfl⟩

end

section

variable (site : Site) (o : Options) (t : Targets) (dir : Artifact.Dir) (area : Artifact.Area)
  (machine : Engine.Machine)

/-- If the engine is ready or not needed, the documents are covered with its verdicts. -/
theorem attempts_covered
    (h : blocksIn site o t = [] ∨
      ∃ engine, ((Engine.setup site (o.engine site)).run machine).value = .ok engine) :
    let tried := Scene.attempts Engine.backend site.disk.readText (started site o dir area machine)
      t.documents
    (∀ a ∈ tried, a.isFatal = false) ∧ Covers o.language site.disk.readText t.documents
      (verdictsOn site o machine t) (reportsOf tried) (failuresOf tried) := by
  intro tried
  by_cases hblocks : blocksIn site o t = []
  · have hverdicts : verdictsOn site o machine t = [] := by
      dsimp only [verdictsOn, workOn]
      rw [hblocks]
      cases ((Engine.setup site (o.engine site)).run machine).value <;> rfl
    rw [hverdicts]
    exact Scene.covers_of_no_blocks Engine.backend site.disk.readText hblocks
  · obtain ⟨engine, hengine⟩ := h.resolve_left hblocks
    have hoffers : (started site o dir area machine).Offers engine
        ((Engine.setup site (o.engine site)).run machine).state := .drawn rfl rfl hengine rfl
    rw [verdictsOn_of_setup hengine]
    exact hoffers.covers Engine.backend site.disk.readText

/-- If it is needed and not ready, some document has a fatal error. -/
theorem attempts_fatal (hblocks : blocksIn site o t ≠ []) {e : Error}
    (h : ((Engine.setup site (o.engine site)).run machine).value = .error e) :
    ∃ a ∈ Scene.attempts Engine.backend site.disk.readText (started site o dir area machine)
      t.documents, a.isFatal = true := by
  obtain ⟨a, ha, hresult⟩ := Scene.exists_attempt_of_refusal Engine.backend site.disk.readText
    (s := started site o dir area machine) rfl rfl rfl h hblocks
  refine ⟨a, ha, ?_⟩
  obtain ⟨message, rfl⟩ := Engine.setup_error h
  rw [Attempt.isFatal, hresult]
  rfl

/-- A check stalls the machine just where the work on the blocks does. -/
theorem check_stalled (hnamed : t.single = true → ∃ document, t.documents = [document])
    (hstalled : machine.stalled = false) :
    ((check site o t).run (started site o dir area machine)).state.world.stalled = true ↔
      ∃ engine, ((Engine.setup site (o.engine site)).run machine).value = .ok engine ∧
        (workOn site o machine t engine).state.2.stalled = true := by
  have hfollow := check_follow site o t (started site o dir area machine) hnamed
  have hsetup : ((Engine.setup site (o.engine site)).run machine).state.stalled = false :=
    (Engine.setup_stalled site (o.engine site) machine).trans hstalled
  by_cases hblocks : blocksIn site o t = []
  · -- Nothing is asked, and the check leaves the machine as it was.
    rw [Scene.follow_empty Engine.backend hfollow
      (Scene.visits_empty Engine.backend site.disk.readText hblocks)]
    refine ⟨fun h ↦ absurd (hstalled.symm.trans h) Bool.false_ne_true, ?_⟩
    rintro ⟨engine, -, hwork⟩
    rw [workOn, hblocks] at hwork
    exact absurd (hsetup.symm.trans hwork) Bool.false_ne_true
  · cases hvalue : ((Engine.setup site (o.engine site)).run machine).value with
    | ok engine =>
      have hoffers : (started site o dir area machine).Offers engine
          ((Engine.setup site (o.engine site)).run machine).state := .drawn rfl rfl hvalue rfl
      rw [hoffers.world Engine.backend site.disk.readText hfollow hblocks]
      constructor
      · exact fun hwork ↦ ⟨engine, rfl, hwork⟩
      · rintro ⟨engine', hengine', hwork⟩
        rw [← Except.ok.inj hengine'] at hwork
        exact hwork
    | error e =>
      obtain ⟨message, rfl⟩ := Engine.setup_error hvalue
      let P (u : Scene Engine.Machine Engine) : Prop :=
        u.Barred (Engine.setup site (o.engine site)) machine
      have hstep : ∀ v : Visit Engine.Machine Engine, P v.before → P (v.after Engine.backend) :=
        fun v hv ↦ Scene.Barred.after Engine.backend hvalue hv
      have hstart : P (started site o dir area machine) := ⟨rfl, rfl, .inl ⟨rfl, rfl⟩⟩
      obtain ⟨-, -, ⟨-, hworld⟩ | ⟨-, hworld⟩⟩ := (hfollow.invariant hstep hstart).2
      · rw [hworld, hstalled]
        exact ⟨nofun, fun ⟨_, hengine, _⟩ ↦ nomatch hengine⟩
      · rw [hworld, hsetup]
        exact ⟨nofun, fun ⟨_, hengine, _⟩ ↦ nomatch hengine⟩

/-- A check leaves its directory where it is, and touches no other. -/
theorem check_spares (hnamed : t.single = true → ∃ document, t.documents = [document]) :
    let after := ((check site o t).run (started site o dir area machine)).state
    after.checker.artifacts = some dir ∧ area.Spares dir.id after.area := by
  intro after
  have hfollow := check_follow site o t (started site o dir area machine) hnamed
  let P (s : Scene Engine.Machine Engine) : Prop :=
    s.checker.artifacts = some dir ∧ area.Spares dir.id s.area
  have hstep : ∀ v : Visit Engine.Machine Engine, P v.before → P (v.after Engine.backend) := by
    rintro v ⟨hartifacts, hspares⟩
    exact ⟨(v.settings Engine.backend).2.2.trans hartifacts,
      hspares.trans (v.spares Engine.backend hartifacts)⟩
  have hstart : P (started site o dir area machine) := ⟨rfl, .refl dir.id area⟩
  exact (hfollow.invariant hstep hstart).2

end

section

variable {site : Site} {o : Options} {t : Targets} {area : Artifact.Area}
  (machine : Engine.Machine)

/-- Where a check takes place, the run is hindered just by a setup that fails or by a document that
cannot be read. -/
theorem hindered_iff (ht : Targets.resolve site.disk o.inputs o.dir? o.recursive = .ok t)
    (hrefusal : area.refusal? = none) :
    Hindered site o area machine ↔
      (blocksIn site o t ≠ [] ∧
        ∃ e, ((Engine.setup site (o.engine site)).run machine).value = .error e) ∨
      unreadPaths site.disk.readText t.documents ≠ [] := by
  constructor
  · intro h
    cases h with
    | unresolved e h => exact nomatch ht.symm.trans h
    | refused fault h => exact nomatch hrefusal.symm.trans h
    | unready t' ht' hblocks e h =>
      obtain rfl : t = t' := Except.ok.inj (ht.symm.trans ht')
      exact .inl ⟨hblocks, e, h⟩
    | unread t' ht' path hpath fault h =>
      obtain rfl : t = t' := Except.ok.inj (ht.symm.trans ht')
      refine .inr (List.ne_nil_of_mem (List.mem_filter.mpr ⟨hpath, ?_⟩))
      rw [h]
      rfl
  · rintro (⟨hblocks, e, h⟩ | hunread)
    · exact .unready t ht hblocks e h
    · obtain ⟨path, hpath⟩ := List.exists_mem_of_ne_nil _ hunread
      obtain ⟨hmem, hnone⟩ := List.mem_filter.mp hpath
      cases hread : site.disk.readText path with
      | error fault => exact .unread t ht path hmem fault hread
      | ok text =>
        rw [hread] at hnone
        exact nomatch hnone

/-- A check that takes place ends with the status of its case. -/
theorem check_ends (ht : Targets.resolve site.disk o.inputs o.dir? o.recursive = .ok t)
    (hrefusal : area.refusal? = none) (dir : Artifact.Dir) (area' : Artifact.Area) :
    Ends site o area machine ((check site o t).run (started site o dir area' machine)).value := by
  have hanswer := check_answer site o t (started site o dir area' machine)
    (Targets.documents_of_single ht)
  have hhindered := hindered_iff machine ht hrefusal
  by_cases hready : blocksIn site o t = [] ∨
      ∃ engine, ((Engine.setup site (o.engine site)).run machine).value = .ok engine
  · obtain ⟨hfatal, hcovers⟩ := attempts_covered site o t dir area' machine hready
    obtain ⟨hstatus, hprinted⟩ := hanswer.covered hfatal hcovers
    have hunready : ¬(blocksIn site o t ≠ [] ∧
        ∃ e, ((Engine.setup site (o.engine site)).run machine).value = .error e) := by
      rintro ⟨hblocks, e, he⟩
      obtain hnone | ⟨engine, hengine⟩ := hready
      · exact hblocks hnone
      · exact nomatch hengine.symm.trans he
    rw [or_iff_right hunready, ← hcovers.failures, Ne, List.map_eq_nil_iff] at hhindered
    refine ⟨fun his ↦ ?_, fun hnot hfaulty ↦ ?_, fun hnot hsound ↦ ?_,
      fun answer hvalue ↦ ⟨t, ht, hprinted answer hvalue⟩⟩
    · rw [hstatus, if_pos (hhindered.mp his)]
    · obtain ⟨t', ht', verdict, hverdict, hinvalid⟩ := hfaulty
      obtain rfl : t = t' := Except.ok.inj (ht.symm.trans ht')
      have hall : (verdictsOn site o machine t).all Verdict.isValid ≠ true :=
        fun hvalid ↦ Bool.false_ne_true
          (hinvalid.symm.trans (List.all_eq_true.mp hvalid verdict hverdict))
      rw [hstatus, if_neg fun hfailures ↦ hnot (hhindered.mpr hfailures), if_neg hall]
    · have hall : (verdictsOn site o machine t).all Verdict.isValid = true := by
        rw [List.all_eq_true]
        intro verdict hverdict
        by_contra hinvalid
        exact hsound ⟨t, ht, verdict, hverdict, Bool.eq_false_iff.mpr hinvalid⟩
      rw [hstatus, if_neg fun hfailures ↦ hnot (hhindered.mpr hfailures), if_pos hall]
  · obtain ⟨hblocks, hnone⟩ := not_or.mp hready
    cases hsetup : ((Engine.setup site (o.engine site)).run machine).value with
    | ok engine => exact absurd ⟨engine, hsetup⟩ hnone
    | error e =>
      obtain ⟨e', hvalue⟩ := hanswer.fatal
        (attempts_fatal site o t dir area' machine hblocks hsetup)
      rw [hvalue]
      exact .of_error (hhindered.mpr (.inl ⟨hblocks, e, hsetup⟩)) e'

end

end CommandLine

end FenceLint
