import FenceLint.Report.Document

/-!
The report on several documents: the reports on those that could be checked, the failures of the
others, and the totals of the former.
-/

set_option autoImplicit false

namespace FenceLint

/-- A document that could not be checked. -/
structure FileFailure where
  sourceFile : String
  error : String
  deriving DecidableEq, Repr

/-- Totals over documents. -/
structure Summary where
  filesChecked : Nat
  totalDiagrams : Nat
  totalValid : Nat
  totalInvalid : Nat
  filesWithErrors : Nat
  totalTime : Float

namespace Summary

/-- The totals of no documents. -/
def zero : Summary := ⟨0, 0, 0, 0, 0, 0.0⟩

/-- The totals with one more document. -/
def add (s : Summary) (r : Report) : Summary where
  filesChecked := s.filesChecked + 1
  totalDiagrams := s.totalDiagrams + r.totalBlocks
  totalValid := s.totalValid + r.validCount
  totalInvalid := s.totalInvalid + r.invalidCount
  filesWithErrors := if r.passed then s.filesWithErrors else s.filesWithErrors + 1
  totalTime := s.totalTime + r.totalTime

/-- The totals of a list of documents. -/
def ofReports (reports : List Report) : Summary := reports.foldl add zero

end Summary

/-- What checking several documents came to. -/
structure MultiReport where
  files : List Report
  failures : List FileFailure
  summary : Summary

namespace MultiReport

/-- The report on these documents and failures. -/
def ofReports (files : List Report) (failures : List FileFailure) : MultiReport :=
  ⟨files, failures, Summary.ofReports files⟩

/-- The worst outcome of a document; one that could not be checked outranks all others. -/
def outcome (m : MultiReport) : Outcome :=
  let checked := (m.files.map Report.outcome).foldl Outcome.combine .passed
  if m.failures.isEmpty then checked else checked.combine .unable

end MultiReport

end FenceLint
