import FenceLint.Proofs.Checker.Visits
import FenceLint.Proofs.Report.Totals

/-!
Several documents as one after the other. A list of documents comes to what its documents come to
when each is checked in the scene that the one before leaves: the reports and the failures in the
order of the paths, or the first error that is fatal.
-/

set_option autoImplicit false

namespace FenceLint

variable {ω π : Type}

/-- A document that was checked, and what it came to. -/
structure Attempt where
  path : String
  result : Except Error Report

namespace Attempt

/-- The report on the document, if it could be checked. -/
def report? (a : Attempt) : Option Report := a.result.toOption

/-- The failure of a document that could not. -/
def failure? (a : Attempt) : Option FileFailure :=
  match a.result with
  | .ok _ => none
  | .error e => some ⟨a.path, e.message⟩

/-- Whether nothing may be checked after the document. -/
def isFatal (a : Attempt) : Bool :=
  match a.result with
  | .ok _ => false
  | .error e => e.isFatal

end Attempt

/-- The reports of some documents, in order. -/
def reportsOf (tried : List Attempt) : List Report := tried.filterMap Attempt.report?

/-- The failures of the others, in order. -/
def failuresOf (tried : List Attempt) : List FileFailure := tried.filterMap Attempt.failure?

theorem reportsOf_cons (a : Attempt) (tried : List Attempt) :
    reportsOf (a :: tried) = a.report?.toList ++ reportsOf tried := by
  rcases a with ⟨path, e | report⟩ <;> rfl

theorem failuresOf_cons (a : Attempt) (tried : List Attempt) :
    failuresOf (a :: tried) = a.failure?.toList ++ failuresOf tried := by
  rcases a with ⟨path, e | report⟩ <;> rfl

/-- The texts of documents that can be read, with their paths. -/
def readTexts (read : String → Except Fault String) (paths : List String) :
    List (String × String) :=
  paths.filterMap fun path ↦ (read path).toOption.map (path, ·)

/-- The documents that cannot be read. -/
def unreadPaths (read : String → Except Fault String) (paths : List String) : List String :=
  paths.filter fun path ↦ (read path).toOption.isNone

namespace Scene

variable (b : Backend ω π) (read : String → Except Fault String)

/-- Checking documents one after the other, whatever each comes to. -/
def attempts (s : Scene ω π) : List String → List Attempt
  | [] => []
  | path :: rest =>
    ⟨path, ((checkDocument b read path).run s).value⟩ ::
      attempts ((checkDocument b read path).run s).state rest

/-- The scene that this leaves. -/
def afterAttempts (s : Scene ω π) : List String → Scene ω π
  | [] => s
  | path :: rest => afterAttempts ((checkDocument b read path).run s).state rest

/-- A document that cannot be read changes nothing. -/
theorem run_checkDocument_unread {path : String} {fault : Fault} (h : read path = .error fault)
    (s : Scene ω π) :
    (checkDocument b read path).run s = ⟨.error (.ofReading path fault), s, []⟩ := by
  rw [checkDocument, h]
  rfl

section

variable {s : Scene ω π} {path : String}

/-- A fatal error is the last thing that happens. -/
theorem checkEach_fatal {e : Error} (h : ((checkDocument b read path).run s).value = .error e)
    (hfatal : e.isFatal = true) (rest : List String) (files : List Report)
    (failures : List FileFailure) :
    ((checkEach b read (path :: rest) files failures).run s).value = .error e ∧
      ((checkEach b read (path :: rest) files failures).run s).state =
        ((checkDocument b read path).run s).state := by
  simp [checkEach, h, hfatal]

/-- Any other document is noted, and the next one is checked. -/
theorem checkEach_continues
    (h : (⟨path, ((checkDocument b read path).run s).value⟩ : Attempt).isFatal = false)
    (rest : List String) (files : List Report) (failures : List FileFailure) :
    let a : Attempt := ⟨path, ((checkDocument b read path).run s).value⟩
    let r := (checkEach b read rest (files ++ a.report?.toList)
      (failures ++ a.failure?.toList)).run ((checkDocument b read path).run s).state
    ((checkEach b read (path :: rest) files failures).run s).value = r.value ∧
      ((checkEach b read (path :: rest) files failures).run s).state = r.state := by
  cases hvalue : ((checkDocument b read path).run s).value with
  | error e =>
    rw [hvalue] at h
    change e.isFatal = false at h
    simp [checkEach, hvalue, h, Attempt.report?, Attempt.failure?, Except.toOption]
  | ok report => simp [checkEach, hvalue, Attempt.report?, Attempt.failure?, Except.toOption]

/-- A single document leaves what checking it alone leaves. -/
theorem checkEach_singleton (files : List Report) (failures : List FileFailure) :
    ((checkEach b read [path] files failures).run s).state =
      ((checkDocument b read path).run s).state := by
  cases hfatal : (⟨path, ((checkDocument b read path).run s).value⟩ : Attempt).isFatal with
  | false => exact (checkEach_continues b read hfatal [] files failures).2
  | true =>
    cases hvalue : ((checkDocument b read path).run s).value with
    | error e =>
      rw [hvalue] at hfatal
      exact (checkEach_fatal b read hvalue hfatal [] files failures).2
    | ok report =>
      rw [hvalue] at hfatal
      exact nomatch hfatal

end

/-- Documents without a fatal error are noted one after the other. -/
theorem checkEach_append {s : Scene ω π} {paths : List String}
    (h : ∀ a ∈ attempts b read s paths, a.isFatal = false) (later : List String)
    (files : List Report) (failures : List FileFailure) :
    let r := (checkEach b read later (files ++ reportsOf (attempts b read s paths))
      (failures ++ failuresOf (attempts b read s paths))).run (afterAttempts b read s paths)
    ((checkEach b read (paths ++ later) files failures).run s).value = r.value ∧
      ((checkEach b read (paths ++ later) files failures).run s).state = r.state := by
  induction paths generalizing s files failures with
  | nil =>
    simp only [attempts, reportsOf, failuresOf, List.filterMap_nil, List.append_nil]
    exact ⟨rfl, rfl⟩
  | cons path rest ih =>
    obtain ⟨hfirst, hrest⟩ := List.forall_mem_cons.mp h
    obtain ⟨hvalue, hstate⟩ := checkEach_continues b read hfirst (rest ++ later) files failures
    have hlater := ih hrest
      (files ++ (⟨path, ((checkDocument b read path).run s).value⟩ : Attempt).report?.toList)
      (failures ++ (⟨path, ((checkDocument b read path).run s).value⟩ : Attempt).failure?.toList)
    rw [List.append_assoc, ← reportsOf_cons, List.append_assoc, ← failuresOf_cons] at hlater
    exact ⟨hvalue.trans hlater.1, hstate.trans hlater.2⟩

section

variable {s : Scene ω π} {paths : List String}

/-- Without a fatal error every document is in the result. -/
theorem run_checkDocuments (h : ∀ a ∈ attempts b read s paths, a.isFatal = false) :
    ((checkDocuments b read paths).run s).value =
        .ok (.ofReports (reportsOf (attempts b read s paths))
          (failuresOf (attempts b read s paths))) ∧
      ((checkDocuments b read paths).run s).state = afterAttempts b read s paths := by
  have hend := checkEach_append b read h [] [] []
  rw [List.append_nil] at hend
  rw [checkDocuments, Act.run_within]
  exact hend

/-- A fatal error ends the list at its document. -/
theorem run_checkDocuments_fatal (h : ∀ a ∈ attempts b read s paths, a.isFatal = false)
    {path : String} {e : Error} (hfatal : e.isFatal = true)
    (hpath : ((checkDocument b read path).run (afterAttempts b read s paths)).value = .error e)
    (later : List String) :
    ((checkDocuments b read (paths ++ path :: later)).run s).value = .error e ∧
      ((checkDocuments b read (paths ++ path :: later)).run s).state =
        ((checkDocument b read path).run (afterAttempts b read s paths)).state := by
  obtain ⟨hvalue, hstate⟩ := checkEach_append b read h (path :: later) [] []
  obtain ⟨hlast, hend⟩ := checkEach_fatal b read hpath hfatal later
    ([] ++ reportsOf (attempts b read s paths)) ([] ++ failuresOf (attempts b read s paths))
  rw [checkDocuments, Act.run_within]
  exact ⟨hvalue.trans hlast, hstate.trans hend⟩

/-- Among documents with a fatal error there is a first one. -/
theorem exists_first_fatal (h : ∃ a ∈ attempts b read s paths, a.isFatal = true) :
    ∃ before path rest e, paths = before ++ path :: rest ∧
      (∀ a ∈ attempts b read s before, a.isFatal = false) ∧
      ((checkDocument b read path).run (afterAttempts b read s before)).value = .error e ∧
      e.isFatal = true := by
  induction paths generalizing s with
  | nil =>
    obtain ⟨a, ha, -⟩ := h
    exact absurd ha List.not_mem_nil
  | cons path rest ih =>
    by_cases hfirst : (⟨path, ((checkDocument b read path).run s).value⟩ : Attempt).isFatal = true
    · cases hvalue : ((checkDocument b read path).run s).value with
      | error e =>
        rw [hvalue] at hfirst
        exact ⟨[], path, rest, e, rfl, nofun, hvalue, hfirst⟩
      | ok report =>
        rw [hvalue] at hfirst
        exact nomatch hfirst
    · obtain ⟨a, ha, hfatal⟩ := h
      have hrest : a ∈ attempts b read ((checkDocument b read path).run s).state rest := by
        rcases List.mem_cons.mp ha with rfl | ha
        · exact absurd hfatal hfirst
        · exact ha
      obtain ⟨before, last, later, e, rfl, hbefore, hlast, he⟩ := ih ⟨a, hrest, hfatal⟩
      refine ⟨path :: before, last, later, e, rfl, ?_, hlast, he⟩
      exact List.forall_mem_cons.mpr ⟨Bool.eq_false_iff.mpr hfirst, hbefore⟩

end

/-- Where every visit gives a report, no document has a fatal error: the documents that can be read
are visited and reported on, and the others are the failures. -/
theorem reportsOf_visits {s : Scene ω π} {paths : List String}
    (h : ∀ v ∈ Task.eachVisit b read paths s, ∃ report, v.result b = .ok report) :
    let tried := attempts b read s paths
    let vs := Task.eachVisit b read paths s
    (∀ a ∈ tried, a.isFatal = false) ∧
      (reportsOf tried).map Except.ok = vs.map (Visit.result b) ∧
      (vs.map fun v ↦ (v.source, v.text)) = readTexts read paths ∧
      (failuresOf tried).map FileFailure.sourceFile = unreadPaths read paths := by
  induction paths generalizing s with
  | nil => exact ⟨fun a ha ↦ absurd ha List.not_mem_nil, rfl, rfl, rfl⟩
  | cons path rest ih =>
    intro tried vs
    change ∀ v ∈ vs, ∃ report, v.result b = .ok report at h
    cases hread : read path with
    | error fault =>
      have hvs : vs = Task.eachVisit b read rest s := by
        simp only [vs, Task.eachVisit, hread]
      have htried : tried =
          ⟨path, .error (.ofReading path fault)⟩ :: attempts b read s rest := by
        simp only [tried, attempts, run_checkDocument_unread b read hread]
      have htexts : readTexts read (path :: rest) = readTexts read rest :=
        List.filterMap_cons_none (by rw [hread]; rfl)
      have hpaths : unreadPaths read (path :: rest) = path :: unreadPaths read rest :=
        List.filter_cons_of_pos (by rw [hread]; rfl)
      rw [hvs] at h
      obtain ⟨hfatal, hreports, hsources, hfailures⟩ := ih h
      rw [hvs, htried, htexts, hpaths, reportsOf_cons, failuresOf_cons]
      refine ⟨List.forall_mem_cons.mpr ⟨isFatal_ofReading path fault, hfatal⟩, hreports, hsources,
        ?_⟩
      exact congrArg (path :: ·) hfailures
    | ok text =>
      let v : Visit ω π := ⟨path, text, s⟩
      have hvisit : checkDocument b read path = checkText b path text := by
        rw [checkDocument, hread]
      obtain ⟨report, hreport⟩ : ∃ report, v.result b = .ok report := by
        refine h v ?_
        simp only [vs, Task.eachVisit, hread]
        exact List.mem_cons_self
      have hvs : vs = v :: Task.eachVisit b read rest (v.after b) := by
        simp only [vs, Task.eachVisit, hread, v, hreport]
      have htried : tried = ⟨path, .ok report⟩ :: attempts b read (v.after b) rest := by
        simp only [tried, attempts, hvisit, ← hreport, Visit.result, Visit.after, v]
      have htexts : readTexts read (path :: rest) = (path, text) :: readTexts read rest :=
        List.filterMap_cons_some (by rw [hread]; rfl)
      have hpaths : unreadPaths read (path :: rest) = unreadPaths read rest :=
        List.filter_cons_of_neg (by rw [hread]; exact Bool.false_ne_true)
      rw [hvs] at h
      obtain ⟨hfatal, hreports, hsources, hfailures⟩ := ih (List.forall_mem_cons.mp h).2
      rw [hvs, htried, htexts, hpaths, reportsOf_cons, failuresOf_cons, List.map_cons, List.map_cons,
        hsources, hreport]
      refine ⟨List.forall_mem_cons.mpr ⟨rfl, hfatal⟩, ?_, rfl, hfailures⟩
      exact congrArg (Except.ok report :: ·) hreports

end Scene

/-- The reports that a call gives. -/
def Task.reports (b : Backend ω π) (s : Scene ω π) : Task → List Report
  | .text source content =>
    ((Scene.checkText b source content).run s).value.toOption.toList
  | .document read path => ((Scene.checkDocument b read path).run s).value.toOption.toList
  | .documents read paths =>
    ((Scene.checkDocuments b read paths).run s).value.toOption.elim [] MultiReport.files

/-- The reports that some calls give. -/
def reports (b : Backend ω π) (s : Scene ω π) : List Task → List Report
  | [] => []
  | task :: rest => task.reports b s ++ reports b (task.after b s) rest

section

variable {b : Backend ω π} {s : Scene ω π}

theorem Task.reports_visits {task : Task}
    (h : ∀ v ∈ task.visits b s, ∃ report, v.result b = .ok report) :
    (task.reports b s).map Except.ok = (task.visits b s).map (Visit.result b) := by
  cases task with
  | text source content =>
    obtain ⟨report, hreport⟩ := h _ (List.mem_singleton_self _)
    change ((Scene.checkText b source content).run s).value = .ok report at hreport
    simp only [reports, visits, List.map_singleton, Visit.result, hreport]
    rfl
  | document read path =>
    cases hread : read path with
    | error fault =>
      simp only [reports, visits, hread, Scene.run_checkDocument_unread b read hread]
      rfl
    | ok content =>
      simp only [visits, hread] at h ⊢
      obtain ⟨report, hreport⟩ := h _ (List.mem_singleton_self _)
      change ((Scene.checkText b path content).run s).value = .ok report at hreport
      simp only [reports, Scene.checkDocument, hread, List.map_singleton, Visit.result, hreport]
      rfl
  | documents read paths =>
    obtain ⟨hfatal, hreports, -⟩ := Scene.reportsOf_visits b read h
    simp only [reports, (Scene.run_checkDocuments b read hfatal).1]
    exact hreports

/-- Where every visit of a run gives a report, these are the reports of the run. -/
theorem reports_visits {tasks : List Task}
    (h : ∀ v ∈ visits b s tasks, ∃ report, v.result b = .ok report) :
    (reports b s tasks).map Except.ok = (visits b s tasks).map (Visit.result b) := by
  induction tasks generalizing s with
  | nil => rfl
  | cons task rest ih =>
    obtain ⟨hfirst, hrest⟩ := List.forall_mem_append.mp h
    rw [reports, visits, List.map_append, List.map_append, Task.reports_visits hfirst, ih hrest]

end

namespace Scene

variable (b : Backend ω π) (read : String → Except Fault String)

end Scene

end FenceLint
