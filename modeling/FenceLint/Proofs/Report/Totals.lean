import FenceLint.Report.Collection
import Mathlib.Algebra.GroupWithZero.Nat

/-!
Counters and what they count. The counters of a report belong to the list of its blocks, the totals
of several reports are sums over them, and the outcome of a collection can be read off either.
Counts, unlike the time, do not depend on the order of the reports (`Summary.counts_perm`), and
those of two collections in one add up (`Summary.counts_append`).
-/

set_option autoImplicit false

namespace FenceLint

namespace Report

/-- A report whose counters are those of its list of blocks. -/
structure Counted (r : Report) : Prop where
  total : r.totalBlocks = r.blocks.length
  valid : r.validCount = r.blocks.countP CheckedBlock.isValid
  invalid : r.invalidCount = r.blocks.countP fun c ↦ !c.isValid

theorem counted_empty (source : String) : (empty source).Counted := ⟨rfl, rfl, rfl⟩

/-- One more block is counted once, as what it is. -/
theorem Counted.push {r : Report} (h : r.Counted) (c : CheckedBlock) : (r.push c).Counted where
  total := by
    change r.totalBlocks + 1 = (r.blocks ++ [c]).length
    rw [h.total, List.length_append, List.length_singleton]
  valid := by
    change (if c.isValid then r.validCount + 1 else r.validCount) = (r.blocks ++ [c]).countP _
    rw [h.valid, List.countP_append, List.countP_singleton]
    cases c.isValid <;> rfl
  invalid := by
    change (if c.isValid then r.invalidCount else r.invalidCount + 1) = (r.blocks ++ [c]).countP _
    rw [h.invalid, List.countP_append, List.countP_singleton]
    cases c.isValid <;> rfl

theorem Counted.foldl_push {r : Report} (h : r.Counted) (checked : List CheckedBlock) :
    (checked.foldl Report.push r).Counted := by
  induction checked generalizing r with
  | nil => exact h
  | cons c rest ih => exact ih (h.push c)

theorem foldl_push (r : Report) (checked : List CheckedBlock) :
    (checked.foldl push r).sourceFile = r.sourceFile ∧
      (checked.foldl push r).blocks = r.blocks ++ checked := by
  induction checked generalizing r with
  | nil => exact ⟨rfl, (List.append_nil _).symm⟩
  | cons c rest ih =>
    obtain ⟨hsource, hblocks⟩ := ih (r.push c)
    refine ⟨hsource, hblocks.trans ?_⟩
    change r.blocks ++ [c] ++ rest = r.blocks ++ c :: rest
    rw [List.append_assoc, List.singleton_append]

variable (source : String) (checked : List CheckedBlock)

theorem ofBlocks_counted : (ofBlocks source checked).Counted :=
  (counted_empty source).foldl_push checked

@[simp] theorem ofBlocks_sourceFile : (ofBlocks source checked).sourceFile = source :=
  (foldl_push (empty source) checked).1

@[simp] theorem ofBlocks_blocks : (ofBlocks source checked).blocks = checked :=
  (foldl_push (empty source) checked).2

/-- A report that is counted passes just when all its blocks are valid. -/
theorem Counted.passed_iff {r : Report} (h : r.Counted) :
    r.passed = true ↔ ∀ c ∈ r.blocks, c.isValid = true := by
  rw [passed, beq_iff_eq, h.invalid, List.countP_eq_zero]
  simp only [Bool.not_eq_true', Bool.not_eq_false]

end Report

namespace Outcome

variable (a b c : Outcome)

theorem passed_combine : passed.combine a = a := by cases a <;> rfl

theorem combine_passed : a.combine passed = a := by cases a <;> rfl

theorem combine_assoc : (a.combine b).combine c = a.combine (b.combine c) := by
  cases a <;> cases b <;> cases c <;> rfl

theorem combine_unable : a.combine unable = unable := by cases a <;> rfl

/-- The worst of some outcomes, whatever they are compared with first. -/
theorem foldl_combine (outcomes : List Outcome) :
    outcomes.foldl combine a = a.combine (outcomes.foldl combine passed) := by
  induction outcomes generalizing a with
  | nil => exact (combine_passed a).symm
  | cons b rest ih =>
    rw [List.foldl_cons, List.foldl_cons, ih (a.combine b), ih (passed.combine b), passed_combine,
      combine_assoc]

end Outcome

namespace Summary

/-- Totals that are sums over a list of reports. -/
structure Sums (s : Summary) (reports : List Report) : Prop where
  files : s.filesChecked = reports.length
  diagrams : s.totalDiagrams = (reports.map Report.totalBlocks).sum
  valid : s.totalValid = (reports.map Report.validCount).sum
  invalid : s.totalInvalid = (reports.map Report.invalidCount).sum
  errors : s.filesWithErrors = reports.countP fun r ↦ !r.passed

theorem sums_zero : zero.Sums [] := ⟨rfl, rfl, rfl, rfl, rfl⟩

variable {s t u : Summary} {reports later : List Report}

theorem Sums.add (h : s.Sums reports) (r : Report) : (s.add r).Sums (reports ++ [r]) where
  files := by
    change s.filesChecked + 1 = _
    rw [h.files, List.length_append, List.length_singleton]
  diagrams := by
    change s.totalDiagrams + r.totalBlocks = _
    rw [h.diagrams, List.map_append, List.sum_append, List.map_singleton, List.sum_singleton]
  valid := by
    change s.totalValid + r.validCount = _
    rw [h.valid, List.map_append, List.sum_append, List.map_singleton, List.sum_singleton]
  invalid := by
    change s.totalInvalid + r.invalidCount = _
    rw [h.invalid, List.map_append, List.sum_append, List.map_singleton, List.sum_singleton]
  errors := by
    change (if r.passed then s.filesWithErrors else s.filesWithErrors + 1) = _
    rw [h.errors, List.countP_append, List.countP_singleton]
    cases r.passed <;> rfl

theorem Sums.foldl_add (h : s.Sums reports) (later : List Report) :
    (later.foldl Summary.add s).Sums (reports ++ later) := by
  induction later generalizing s reports with
  | nil => rwa [List.append_nil]
  | cons r rest ih =>
    have hrest := ih (h.add r)
    rwa [List.append_assoc, List.singleton_append] at hrest

theorem ofReports_sums (reports : List Report) : (ofReports reports).Sums reports :=
  sums_zero.foldl_add reports

/-- Sums of lists in a row add up. -/
theorem Sums.append (hs : s.Sums reports) (ht : t.Sums later) (hu : u.Sums (reports ++ later)) :
    u.filesChecked = s.filesChecked + t.filesChecked ∧
      u.totalDiagrams = s.totalDiagrams + t.totalDiagrams ∧
      u.totalValid = s.totalValid + t.totalValid ∧
      u.totalInvalid = s.totalInvalid + t.totalInvalid ∧
      u.filesWithErrors = s.filesWithErrors + t.filesWithErrors := by
  refine ⟨?_, ?_, ?_, ?_, ?_⟩
  · rw [hu.files, hs.files, ht.files, List.length_append]
  · rw [hu.diagrams, hs.diagrams, ht.diagrams, List.map_append, List.sum_append]
  · rw [hu.valid, hs.valid, ht.valid, List.map_append, List.sum_append]
  · rw [hu.invalid, hs.invalid, ht.invalid, List.map_append, List.sum_append]
  · rw [hu.errors, hs.errors, ht.errors, List.countP_append]

/-- The totals but for the time, a sum of rounded numbers that depends on the order. -/
structure Counts where
  files : Nat
  diagrams : Nat
  valid : Nat
  invalid : Nat
  errors : Nat
  deriving DecidableEq, Repr

instance : Add Counts where
  add a b := ⟨a.files + b.files, a.diagrams + b.diagrams, a.valid + b.valid,
    a.invalid + b.invalid, a.errors + b.errors⟩

/-- What a summary counts. -/
def counts (s : Summary) : Counts :=
  ⟨s.filesChecked, s.totalDiagrams, s.totalValid, s.totalInvalid, s.filesWithErrors⟩

theorem counts_append (reports later : List Report) :
    (ofReports (reports ++ later)).counts = (ofReports reports).counts + (ofReports later).counts := by
  obtain ⟨hfiles, hdiagrams, hvalid, hinvalid, herrors⟩ :=
    (ofReports_sums reports).append (ofReports_sums later) (ofReports_sums (reports ++ later))
  rw [counts, hfiles, hdiagrams, hvalid, hinvalid, herrors]
  rfl

theorem counts_perm (h : reports.Perm later) :
    (ofReports reports).counts = (ofReports later).counts := by
  have hs := ofReports_sums reports
  have ht := ofReports_sums later
  rw [counts, counts, hs.files, hs.diagrams, hs.valid, hs.invalid, hs.errors, ht.files,
    ht.diagrams, ht.valid, ht.invalid, ht.errors, h.length_eq, (h.map _).sum_nat,
    (h.map _).sum_nat, (h.map _).sum_nat, h.countP_eq]

/-- No block of a collection is invalid just when every report passes. -/
theorem Sums.totalInvalid_eq_zero_iff (h : s.Sums reports) :
    s.totalInvalid = 0 ↔ reports.all Report.passed = true := by
  rw [h.invalid, List.sum_eq_zero_iff_forall_eq_nat, List.all_eq_true]
  simp only [List.mem_map, forall_exists_index, and_imp, forall_apply_eq_imp_iff₂,
    Report.passed, beq_iff_eq]

end Summary

namespace MultiReport

variable (files later : List Report) (failures failed : List FileFailure)

theorem outcome_of_failures {m : MultiReport} (h : m.failures ≠ []) : m.outcome = .unable := by
  have hisEmpty : m.failures.isEmpty = false := List.isEmpty_eq_false_iff.mpr h
  rw [outcome, hisEmpty]
  exact Outcome.combine_unable _

/-- Without failures the outcome is the worst among the reports. -/
theorem outcome_of_no_failures {m : MultiReport} (h : m.failures = []) :
    m.outcome = if m.files.all Report.passed then .passed else .invalid := by
  rw [outcome, h]
  change (m.files.map Report.outcome).foldl Outcome.combine .passed = _
  induction m.files with
  | nil => rfl
  | cons r rest ih =>
    rw [List.map_cons, List.foldl_cons, Outcome.foldl_combine, Outcome.passed_combine, ih,
      List.all_cons, Report.outcome]
    cases r.passed <;> cases rest.all Report.passed <;> rfl

end MultiReport

section Documents

/-- The reports on documents that are given by their names and checked blocks. -/
def Report.ofEach (docs : List (String × List CheckedBlock)) : List Report :=
  docs.map fun d ↦ ofBlocks d.1 d.2

/-- What is counted over documents is counted over all their blocks at once. -/
theorem Summary.counts_ofEach (docs : List (String × List CheckedBlock)) :
    let all := docs.flatMap Prod.snd
    (ofReports (Report.ofEach docs)).counts =
      ⟨docs.length, all.length, all.countP CheckedBlock.isValid, all.countP fun c ↦ !c.isValid,
        docs.countP fun d ↦ d.2.any fun c ↦ !c.isValid⟩ := by
  intro all
  have hsums := ofReports_sums (Report.ofEach docs)
  have hcounted (d : String × List CheckedBlock) := Report.ofBlocks_counted d.1 d.2
  have hpassed (d : String × List CheckedBlock) :
      (!(Report.ofBlocks d.1 d.2).passed) = d.2.any fun c ↦ !c.isValid := by
    rw [← List.not_all_eq_any_not, Bool.not_inj_iff, Bool.eq_iff_iff, (hcounted d).passed_iff,
      Report.ofBlocks_blocks, List.all_eq_true]
  rw [counts, hsums.files, hsums.diagrams, hsums.valid, hsums.invalid, hsums.errors,
    List.length_flatMap, List.countP_flatMap, List.countP_flatMap]
  simp only [Report.ofEach, List.length_map, List.map_map, List.countP_map, Function.comp_def,
    (hcounted _).total, (hcounted _).valid, (hcounted _).invalid, Report.ofBlocks_blocks, hpassed]

/-- Every block is counted as valid or as invalid. -/
theorem CheckedBlock.countP_isValid_add (checked : List CheckedBlock) :
    checked.countP isValid + checked.countP (fun c ↦ !c.isValid) = checked.length := by
  rw [List.length_eq_countP_add_countP isValid]
  simp only [Bool.not_eq_true, Bool.decide_eq_false]

/-- Some document holds an invalid block just when there is an invalid block at all. -/
theorem CheckedBlock.countP_any_eq_zero_iff (docs : List (String × List CheckedBlock)) :
    (docs.countP fun d ↦ d.2.any fun c ↦ !c.isValid) = 0 ↔
      ((docs.flatMap Prod.snd).countP fun c ↦ !c.isValid) = 0 := by
  simp only [List.countP_eq_zero, List.mem_flatMap, List.any_eq_true, not_exists, not_and,
    forall_exists_index, and_imp]
  exact ⟨fun h c d hd hc ↦ h d hd c hc, fun h d hd c hc ↦ h c d hd hc⟩

/-- The outcome of a collection is told by its failures and the number of its invalid blocks. -/
theorem MultiReport.outcome_ofReports (reports : List Report) (failures : List FileFailure) :
    let m := ofReports reports failures
    m.outcome = if failures ≠ [] then .unable
      else if 0 < m.summary.totalInvalid then .invalid else .passed := by
  intro m
  have hsums : m.summary.Sums m.files := Summary.ofReports_sums reports
  by_cases hfailures : failures = []
  · rw [if_neg (not_not_intro hfailures), outcome_of_no_failures (m := m) hfailures]
    by_cases hpassed : m.files.all Report.passed = true
    · have hzero := hsums.totalInvalid_eq_zero_iff.mpr hpassed
      rw [if_pos hpassed, if_neg (by omega)]
    · have hsome : m.summary.totalInvalid ≠ 0 :=
        fun hzero ↦ hpassed (hsums.totalInvalid_eq_zero_iff.mp hzero)
      rw [if_neg hpassed, if_pos (Nat.pos_of_ne_zero hsome)]
  · rw [if_pos hfailures]
    exact outcome_of_failures hfailures

/-- The counters of a report and of a collection are those of their blocks, and the outcome agrees
with them. What a collection counts is the same in any order of its reports, and adds up over two
collections in one. -/
theorem counters_match (source : String) (checked : List CheckedBlock)
    (docs : List (String × List CheckedBlock)) (failures : List FileFailure) :
    let r := Report.ofBlocks source checked
    let reports := Report.ofEach docs
    let m := MultiReport.ofReports reports failures
    let all := docs.flatMap Prod.snd
    (r.blocks = checked ∧
      r.totalBlocks = checked.length ∧
      r.validCount = checked.countP CheckedBlock.isValid ∧
      r.invalidCount = (checked.countP fun c ↦ !c.isValid) ∧
      r.validCount + r.invalidCount = r.totalBlocks ∧
      (r.passed = true ↔ ∀ c ∈ checked, c.isValid = true)) ∧
    m.summary.filesChecked = reports.length ∧
      m.summary.totalDiagrams = all.length ∧
      m.summary.totalValid = all.countP CheckedBlock.isValid ∧
      m.summary.totalInvalid = (all.countP fun c ↦ !c.isValid) ∧
      m.summary.totalValid + m.summary.totalInvalid = m.summary.totalDiagrams ∧
      m.summary.filesWithErrors = (docs.countP fun d ↦ d.2.any fun c ↦ !c.isValid) ∧
      (m.summary.filesWithErrors = 0 ↔ m.summary.totalInvalid = 0) ∧
      (∀ (others : List Report) (failed : List FileFailure), others.Perm reports →
        (MultiReport.ofReports others failed).summary.counts = m.summary.counts) ∧
      (∀ (later : List Report) (failed : List FileFailure),
        (MultiReport.ofReports (reports ++ later) failed).summary.counts =
          m.summary.counts + (MultiReport.ofReports later failed).summary.counts) ∧
      m.outcome = if failures ≠ [] then .unable
        else if 0 < m.summary.totalInvalid then .invalid else .passed := by
  intro r reports m all
  constructor
  · have hcounted : r.Counted := Report.ofBlocks_counted source checked
    have hblocks : r.blocks = checked := Report.ofBlocks_blocks source checked
    have htotal := hcounted.total
    have hvalid := hcounted.valid
    have hinvalid := hcounted.invalid
    have hpassed := hcounted.passed_iff
    rw [hblocks] at htotal hvalid hinvalid hpassed
    refine ⟨hblocks, htotal, hvalid, hinvalid, ?_, hpassed⟩
    rw [hvalid, hinvalid, htotal, CheckedBlock.countP_isValid_add]
  · have hcounts := Summary.counts_ofEach docs
    obtain ⟨hfiles, hdiagrams, hvalid, hinvalid, herrors⟩ := Summary.Counts.mk.inj hcounts
    have hlength : reports.length = docs.length := List.length_map _
    refine ⟨hfiles.trans hlength.symm, hdiagrams, hvalid, hinvalid, ?_, herrors, ?_, ?_, ?_,
      MultiReport.outcome_ofReports reports failures⟩
    · exact (congrArg₂ (· + ·) hvalid hinvalid).trans
        ((CheckedBlock.countP_isValid_add all).trans hdiagrams.symm)
    · change (Summary.ofReports reports).filesWithErrors = 0 ↔
        (Summary.ofReports reports).totalInvalid = 0
      rw [herrors, hinvalid]
      exact CheckedBlock.countP_any_eq_zero_iff docs
    · intro others failed hperm
      exact Summary.counts_perm hperm
    · intro later failed
      exact Summary.counts_append reports later

/-- A block that is in order, and one that is not. -/
def soundBlock : CheckedBlock := ⟨⟨0, 2, 3, "graph TD"⟩, .passed .zero, none⟩

def brokenBlock : CheckedBlock := ⟨⟨1, 6, 7, "pie"⟩, .failed "unexpected end" .zero, none⟩

theorem counters_match_swapped :
    let docs := [("a.md", [soundBlock, brokenBlock]), ("b.md", [soundBlock])]
    let reports := Report.ofEach docs
    reports.reverse.Perm reports ∧
      (MultiReport.ofReports reports.reverse []).summary.counts =
        (MultiReport.ofReports reports []).summary.counts := by
  intro docs reports
  have hmatch := (counters_match "a.md" [soundBlock] docs []).2
  exact ⟨reports.reverse_perm, hmatch.2.2.2.2.2.2.2.1 _ [] reports.reverse_perm⟩

end Documents

end FenceLint
