import FenceLint.Proofs.Json.Layout
import FenceLint.Proofs.Report.Totals
import FenceLint.Report.Encoding

/-!
Reports read back from their JSON. What a reader takes from a report is its `record`: all of it but
the codes of the blocks and the times. A record is read from the value by its keys
(`ReportRecord.read?_toJson`, `CollectionRecord.read?_toJson`), which is sound because no object
holds a key twice, also where the members of a block, its verdict and its file are put into one
object. The value itself is read from either layout of its text, so reports with different records
are printed differently.
-/

set_option autoImplicit false

namespace FenceLint

namespace Json

/-- Every object in a value holds each of its keys once. -/
inductive DistinctKeys : Json → Prop
  | null : DistinctKeys .null
  | bool (b : Bool) : DistinctKeys (.bool b)
  | number (n : Number) : DistinctKeys (.number n)
  | string (text? : Option String) : DistinctKeys (.string text?)
  | array (items : List Json) (hitems : ∀ v ∈ items, DistinctKeys v) : DistinctKeys (.array items)
  | object (members : List (Option String × Json)) (hkeys : (members.map Prod.fst).Nodup)
      (hvalues : ∀ m ∈ members, DistinctKeys m.2) : DistinctKeys (.object members)

theorem distinctKeys_textOrNull (s? : Option String) : (textOrNull s?).DistinctKeys := by
  cases s? with
  | none => exact .null
  | some s => exact .string (some s)

theorem distinctKeys_float (x : Float) : (float x).DistinctKeys := by
  rw [float]
  split
  · exact .number _
  · exact .null

theorem distinctKeys_record {members : List (String × Json)}
    (hkeys : (members.map Prod.fst).Nodup) (hvalues : ∀ m ∈ members, m.2.DistinctKeys) :
    (record members).DistinctKeys := by
  refine .object _ ?_ ?_
  · rw [List.map_map]
    have hsome := hkeys.map (Option.some_injective String)
    rwa [List.map_map] at hsome
  · intro m hm
    obtain ⟨n, hn, rfl⟩ := List.mem_map.mp hm
    exact hvalues n hn

theorem distinctKeys_array_map {α : Type} {toJson : α → Json} (xs : List α)
    (h : ∀ x, (toJson x).DistinctKeys) : (array (xs.map toJson)).DistinctKeys := by
  refine .array _ fun v hv ↦ ?_
  obtain ⟨x, -, rfl⟩ := List.mem_map.mp hv
  exact h x

/-- Both layouts of a value are text that is read as the value, and no key of it is ambiguous. -/
structure Legible (v : Json) : Prop where
  compact : parse? v.compact = some v
  pretty : parse? v.pretty = some v
  keys : v.DistinctKeys

theorem DistinctKeys.legible {v : Json} (h : v.DistinctKeys) : v.Legible :=
  ⟨parse?_compact v, parse?_pretty v, h⟩

/-- The value under a key of an object. -/
def field? (key : String) : Json → Option Json
  | .object members => members.lookup (some key)
  | _ => none

/-- A natural number. -/
def toNat? : Json → Option Nat
  | .number ⟨false, n, [], none⟩ => some n
  | _ => none

/-- A truth value. -/
def toBool? : Json → Option Bool
  | .bool b => some b
  | _ => none

/-- A text. -/
def toText? : Json → Option String
  | .string text? => text?
  | _ => none

/-- A text, or nothing where there is a null. -/
def toTextOrNull? : Json → Option (Option String)
  | .null => some none
  | v => v.toText?.map some

/-- The items of an array, each of them read. -/
def toList? {α : Type} (read? : Json → Option α) : Json → Option (List α)
  | .array items => items.mapM read?
  | _ => none

@[simp] theorem field?_record (key : String) (members : List (String × Json)) :
    (record members).field? key = members.lookup key := by
  rw [record, field?]
  induction members with
  | nil => rfl
  | cons m rest ih =>
    rw [List.map_cons, List.lookup_cons, List.lookup_cons, ih]
    rfl

@[simp] theorem toNat?_nat (n : Nat) : (nat n).toNat? = some n := rfl

@[simp] theorem toBool?_bool (b : Bool) : (bool b).toBool? = some b := rfl

@[simp] theorem toText?_text (s : String) : (text s).toText? = some s := rfl

@[simp] theorem toTextOrNull?_textOrNull (s? : Option String) :
    (textOrNull s?).toTextOrNull? = some s? := by
  cases s? <;> rfl

theorem toList?_map {α β : Type} {read? : Json → Option β} {toJson : α → Json} {record : α → β}
    (h : ∀ x, read? (toJson x) = some (record x)) (xs : List α) :
    (array (xs.map toJson)).toList? read? = some (xs.map record) := by
  rw [toList?]
  induction xs with
  | nil => rfl
  | cons x rest ih =>
    rw [List.map_cons, List.mapM_cons, h, ih]
    rfl

end Json

open Json

/-- What a reader takes from a checked block. -/
structure BlockRecord where
  index : Nat
  lineStart : Nat
  lineEnd : Nat
  diagramType : String
  valid : Bool
  error? : Option String
  fileName? : Option String
  deriving DecidableEq, Repr

/-- What a reader takes from a report. -/
structure ReportRecord where
  sourceFile : String
  totalBlocks : Nat
  validCount : Nat
  invalidCount : Nat
  blocks : List BlockRecord
  deriving DecidableEq, Repr

/-- What a reader takes from a report on several documents. -/
structure CollectionRecord where
  files : List ReportRecord
  failures : List FileFailure
  filesChecked : Nat
  totalDiagrams : Nat
  totalValid : Nat
  totalInvalid : Nat
  filesWithErrors : Nat
  deriving DecidableEq, Repr

/-- The record of a block, read by its keys. A block without a file has no key for one. -/
def BlockRecord.read? (v : Json) : Option BlockRecord := do
  let index ← (v.field? "index").bind toNat?
  let lineStart ← (v.field? "lineStart").bind toNat?
  let lineEnd ← (v.field? "lineEnd").bind toNat?
  let diagramType ← (v.field? "diagramType").bind toText?
  let valid ← (v.field? "valid").bind toBool?
  let error? ← (v.field? "error").bind toTextOrNull?
  let fileName? ← match v.field? "fileName" with
    | none => some none
    | some name => name.toText?.map some
  pure { index, lineStart, lineEnd, diagramType, valid, error?, fileName? }

/-- The record of a report, read by its keys. -/
def ReportRecord.read? (v : Json) : Option ReportRecord := do
  let sourceFile ← (v.field? "sourceFile").bind toText?
  let totalBlocks ← (v.field? "totalBlocks").bind toNat?
  let validCount ← (v.field? "validCount").bind toNat?
  let invalidCount ← (v.field? "invalidCount").bind toNat?
  let blocks ← (v.field? "blocks").bind (toList? BlockRecord.read?)
  pure { sourceFile, totalBlocks, validCount, invalidCount, blocks }

/-- A failure, read by its keys. -/
def FileFailure.read? (v : Json) : Option FileFailure := do
  let sourceFile ← (v.field? "sourceFile").bind toText?
  let error ← (v.field? "error").bind toText?
  pure { sourceFile, error }

/-- The record of a report on several documents, read by its keys. -/
def CollectionRecord.read? (v : Json) : Option CollectionRecord := do
  let files ← (v.field? "files").bind (toList? ReportRecord.read?)
  let failures ← (v.field? "failures").bind (toList? FileFailure.read?)
  let filesChecked ← (v.field? "filesChecked").bind toNat?
  let totalDiagrams ← (v.field? "totalDiagrams").bind toNat?
  let totalValid ← (v.field? "totalValid").bind toNat?
  let totalInvalid ← (v.field? "totalInvalid").bind toNat?
  let filesWithErrors ← (v.field? "filesWithErrors").bind toNat?
  pure { files, failures, filesChecked, totalDiagrams, totalValid, totalInvalid, filesWithErrors }

/-- The record of a checked block. -/
def CheckedBlock.record (c : CheckedBlock) : BlockRecord :=
  ⟨c.block.index, c.block.lineStart, c.block.lineEnd, c.block.diagramType, c.isValid,
    c.verdict.error?, c.fileName?⟩

/-- The record of a report. -/
def Report.record (r : Report) : ReportRecord :=
  ⟨r.sourceFile, r.totalBlocks, r.validCount, r.invalidCount, r.blocks.map CheckedBlock.record⟩

/-- The record of a report on several documents. -/
def MultiReport.record (m : MultiReport) : CollectionRecord :=
  ⟨m.files.map Report.record, m.failures, m.summary.filesChecked, m.summary.totalDiagrams,
    m.summary.totalValid, m.summary.totalInvalid, m.summary.filesWithErrors⟩

section Keys

theorem Block.distinctKeys_members (b : Block) : ∀ m ∈ b.members, m.2.DistinctKeys := by
  simp only [Block.members, List.forall_mem_cons, List.not_mem_nil, false_imp_iff, implies_true,
    and_true]
  exact ⟨.number _, .number _, .number _, .string _⟩

theorem Verdict.distinctKeys_members (v : Verdict) : ∀ m ∈ v.members, m.2.DistinctKeys := by
  simp only [Verdict.members, List.forall_mem_cons, List.not_mem_nil, false_imp_iff, implies_true,
    and_true]
  exact ⟨.bool _, distinctKeys_textOrNull _, distinctKeys_float _⟩

theorem Summary.distinctKeys_members (s : Summary) : ∀ m ∈ s.members, m.2.DistinctKeys := by
  simp only [Summary.members, List.forall_mem_cons, List.not_mem_nil, false_imp_iff, implies_true,
    and_true]
  exact ⟨.number _, .number _, .number _, .number _, .number _, distinctKeys_float _⟩

/-- The members of a block, its verdict and its file do not collide. -/
theorem CheckedBlock.distinctKeys_toJson (c : CheckedBlock) : c.toJson.DistinctKeys := by
  have hparts : ∀ m ∈ c.block.members ++ c.verdict.members, m.2.DistinctKeys :=
    List.forall_mem_append.mpr ⟨c.block.distinctKeys_members, c.verdict.distinctKeys_members⟩
  refine distinctKeys_record ?_ (List.forall_mem_append.mpr ⟨hparts, ?_⟩)
  · cases c.fileName? with
    | none =>
      show ["index", "lineStart", "lineEnd", "diagramType", "valid", "error", "elapsedTime"].Nodup
      decide
    | some name =>
      show ["index", "lineStart", "lineEnd", "diagramType", "valid", "error", "elapsedTime",
        "fileName"].Nodup
      decide
  · cases c.fileName? with
    | none => exact fun m hm ↦ absurd hm List.not_mem_nil
    | some name => exact List.forall_mem_singleton.mpr (.string _)

theorem Report.distinctKeys_toJson (r : Report) : r.toJson.DistinctKeys := by
  refine distinctKeys_record ?_ ?_
  · show ["sourceFile", "totalBlocks", "validCount", "invalidCount", "blocks", "totalTime"].Nodup
    decide
  · simp only [List.forall_mem_cons, List.not_mem_nil, false_imp_iff, implies_true, and_true]
    exact ⟨.string _, .number _, .number _, .number _,
      distinctKeys_array_map _ CheckedBlock.distinctKeys_toJson, distinctKeys_float _⟩

theorem FileFailure.distinctKeys_toJson (f : FileFailure) : f.toJson.DistinctKeys := by
  refine distinctKeys_record ?_ ?_
  · show ["sourceFile", "error"].Nodup
    decide
  · simp only [List.forall_mem_cons, List.not_mem_nil, false_imp_iff, implies_true, and_true]
    exact ⟨.string _, .string _⟩

/-- The totals stand beside the files and failures without a collision. -/
theorem MultiReport.distinctKeys_toJson (m : MultiReport) : m.toJson.DistinctKeys := by
  refine distinctKeys_record ?_ (List.forall_mem_append.mpr ⟨?_, m.summary.distinctKeys_members⟩)
  · show ["files", "failures", "filesChecked", "totalDiagrams", "totalValid", "totalInvalid",
      "filesWithErrors", "totalTime"].Nodup
    decide
  · simp only [List.forall_mem_cons, List.not_mem_nil, false_imp_iff, implies_true, and_true]
    exact ⟨distinctKeys_array_map _ Report.distinctKeys_toJson,
      distinctKeys_array_map _ FileFailure.distinctKeys_toJson⟩

end Keys

section Reading

theorem BlockRecord.read?_toJson (c : CheckedBlock) : read? c.toJson = some c.record := by
  cases hname : c.fileName? <;>
    simp [read?, CheckedBlock.toJson, Block.members, Verdict.members, List.lookup_cons, hname,
      CheckedBlock.record, CheckedBlock.isValid]

theorem ReportRecord.read?_toJson (r : Report) : read? r.toJson = some r.record := by
  simp [read?, Report.toJson, List.lookup_cons, toList?_map BlockRecord.read?_toJson, Report.record]

theorem FileFailure.read?_toJson (f : FileFailure) : read? f.toJson = some f := by
  simp [read?, FileFailure.toJson, List.lookup_cons]

theorem CollectionRecord.read?_toJson (m : MultiReport) : read? m.toJson = some m.record := by
  have hfailures : (array (m.failures.map FileFailure.toJson)).toList? FileFailure.read? =
      some (m.failures.map id) := toList?_map FileFailure.read?_toJson m.failures
  rw [List.map_id] at hfailures
  simp [read?, MultiReport.toJson, Summary.members, List.lookup_cons, hfailures,
    toList?_map ReportRecord.read?_toJson, MultiReport.record]

end Reading

/-- What the object of a checked block says: it is valid just when there is no error, an error is a
text that is not blank, and there is a key for the file just when there is a file. -/
structure CheckedBlock.Told (c : CheckedBlock) : Prop where
  verdict : c.toJson.field? "valid" = some (.bool true) ↔ c.toJson.field? "error" = some .null
  error : ∀ e, c.toJson.field? "error" = some e →
    e = .null ∨ ∃ message, e = .text message ∧ Text.isAllBlank message = false
  file : c.toJson.field? "fileName" = none ↔ c.fileName? = none

theorem CheckedBlock.told (c : CheckedBlock) : c.Told := by
  have hvalid : c.toJson.field? "valid" = some (.bool c.isValid) := by
    simp [toJson, Block.members, Verdict.members, List.lookup_cons, isValid]
  have herror : c.toJson.field? "error" = some (.textOrNull c.verdict.error?) := by
    simp [toJson, Block.members, Verdict.members, List.lookup_cons]
  have hfile : c.toJson.field? "fileName" = c.fileName?.map .text := by
    cases hname : c.fileName? <;>
      simp [toJson, Block.members, Verdict.members, List.lookup_cons, hname]
  constructor
  · rw [hvalid, herror, isValid, Verdict.isValid, Verdict.error?]
    cases c.verdict.reason? with
    | none => simp [textOrNull]
    | some reason => simp [textOrNull, text]
  · rintro e he
    rw [herror, Verdict.error?] at he
    obtain rfl := Option.some.inj he
    cases c.verdict.reason? with
    | none => exact .inl rfl
    | some reason => exact .inr ⟨reason.text, rfl, reason.said⟩
  · rw [hfile, Option.map_eq_none_iff]

/-- Values that a reader tells apart are told apart by either layout of their text. -/
theorem Json.print_ne {α : Type} {read? : Json → Option α} {v w : Json} {a b : α}
    (hv : read? v = some a) (hw : read? w = some b) (h : a ≠ b) :
    v.compact ≠ w.compact ∧ v.pretty ≠ w.pretty := by
  have hne : v ≠ w := by
    rintro rfl
    exact h (Option.some.inj (hv.symm.trans hw))
  refine ⟨fun hprint ↦ hne ?_, fun hprint ↦ hne ?_⟩
  · have hread := parse?_compact v
    rw [hprint, parse?_compact w] at hread
    exact (Option.some.inj hread).symm
  · have hread := parse?_pretty v
    rw [hprint, parse?_pretty w] at hread
    exact (Option.some.inj hread).symm

/-- The text of a report, in either layout, gives a reader its record. No key in it is ambiguous,
the blocks stand in it in order, and what it says of each one is consistent. Reports with different
records are printed differently. The same holds of a report on several documents. -/
theorem reports_legible :
    (∀ r : Report, r.toJson.Legible ∧ ReportRecord.read? r.toJson = some r.record ∧
      r.toJson.field? "blocks" = some (.array (r.blocks.map CheckedBlock.toJson)) ∧
      ∀ c ∈ r.blocks, c.Told) ∧
    (∀ m : MultiReport, m.toJson.Legible ∧ CollectionRecord.read? m.toJson = some m.record ∧
      m.toJson.field? "files" = some (.array (m.files.map Report.toJson)) ∧
      ∀ r ∈ m.files, ∀ c ∈ r.blocks, c.Told) ∧
    (∀ r s : Report, r.record ≠ s.record →
      r.toJson.compact ≠ s.toJson.compact ∧ r.toJson.pretty ≠ s.toJson.pretty) ∧
    (∀ m n : MultiReport, m.record ≠ n.record →
      m.toJson.compact ≠ n.toJson.compact ∧ m.toJson.pretty ≠ n.toJson.pretty) := by
  refine ⟨?_, ?_, ?_, ?_⟩
  · intro r
    refine ⟨r.distinctKeys_toJson.legible, ReportRecord.read?_toJson r, ?_, fun c _ ↦ c.told⟩
    rw [Report.toJson, field?_record]
    rfl
  · intro m
    refine ⟨m.distinctKeys_toJson.legible, CollectionRecord.read?_toJson m, ?_,
      fun r _ c _ ↦ c.told⟩
    rw [MultiReport.toJson, field?_record]
    rfl
  · intro r s h
    exact Json.print_ne (ReportRecord.read?_toJson r) (ReportRecord.read?_toJson s) h
  · intro m n h
    exact Json.print_ne (CollectionRecord.read?_toJson m) (CollectionRecord.read?_toJson n) h

/-- A block that is rejected with a message of several lines and quotes. -/
def quotingBlock (fileName? : Option String) : CheckedBlock :=
  ⟨⟨0, 2, 3, "graph TD"⟩, .failed "line 1:\n\"\x7b\" expected" .zero, fileName?⟩

theorem reports_legible_quoting :
    let r := Report.ofBlocks "notes.md" [quotingBlock none]
    let s := Report.ofBlocks "notes.md" [quotingBlock (some "000-notes-block-0.mmd")]
    r.record ≠ s.record ∧ r.toJson.compact ≠ s.toJson.compact ∧ r.toJson.pretty ≠ s.toJson.pretty ∧
      quotingBlock none ∈ r.blocks ∧ (quotingBlock none).Told := by
  intro r s
  have hblock : quotingBlock none ∈ r.blocks := by
    rw [Report.ofBlocks_blocks]
    exact List.mem_singleton_self _
  have hne : r.record ≠ s.record := by
    intro heq
    have hfiles := congrArg (fun record ↦ record.blocks.map BlockRecord.fileName?) heq
    simp only [Report.record, r, s, Report.ofBlocks_blocks] at hfiles
    exact nomatch hfiles
  obtain ⟨hreport, -, hdiffer, -⟩ := reports_legible
  obtain ⟨hcompact, hpretty⟩ := hdiffer r s hne
  exact ⟨hne, hcompact, hpretty, hblock, (hreport r).2.2.2 _ hblock⟩

end FenceLint
