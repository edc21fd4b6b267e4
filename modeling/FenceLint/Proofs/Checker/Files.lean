import FenceLint.Proofs.Artifact.Name
import FenceLint.Proofs.Checker.Service
import FenceLint.Proofs.Fence.Decomposition
import Mathlib.Data.List.Nodup

/-!
The files of a run. Documents with blocks are numbered one after the other and blocks are numbered
within their document, so no two blocks of a run are kept under one name: the directory holds what
each visit has left in it, one after the other. A visit that gives a report leaves the blocks that
the report gives file names for; one that ends with an error leaves its first block at most.
-/

set_option autoImplicit false

namespace FenceLint

open Artifact

variable {ω π : Type}

/-- The name that a block of a visit is kept under. -/
def Visit.nameOf (v : Visit ω π) (block : Block) : String :=
  fileName v.before.checker.documents v.source block.index

/-- The names for the blocks of a visit. -/
def Visit.names (v : Visit ω π) : List String := v.blocks.map v.nameOf

/-- The file that a block was kept in, if that worked. -/
def CheckedBlock.file? (c : CheckedBlock) : Option (String × String) :=
  c.fileName?.map (·, c.block.code)

/-- What a visit leaves in the directory. -/
inductive Visit.Leaves (b : Backend ω π) (v : Visit ω π) : List (String × String) → Prop
  | reported (report : Report) (hresult : v.result b = .ok report)
    (hnames : ∀ c ∈ report.blocks, ∀ name, c.fileName? = some name → name = v.nameOf c.block) :
    Leaves b v (report.blocks.filterMap CheckedBlock.file?)
  | refused (e : Error) (hresult : v.result b = .error e) : Leaves b v []
  | abandoned (e : Error) (hresult : v.result b = .error e) (block : Block)
    (hblock : block ∈ v.blocks) (hfirst : block.index = 0) :
    Leaves b v [(v.nameOf block, block.code)]

/-- A directory whose files all have names of their own, for documents that the checker has counted
already. -/
structure Filing (dir : Dir) (s : Scene ω π) (files : List (String × String)) : Prop where
  artifacts : s.checker.artifacts = some dir
  folder : s.area.folder? dir.id = some files
  nodup : (files.map Prod.fst).Nodup
  counted : ∀ file ∈ files, readDocument file.1 < s.checker.documents

namespace Visit

variable (b : Backend ω π) (v : Visit ω π)

theorem readDocument_of_mem {name : String} (h : name ∈ v.names) :
    readDocument name = v.before.checker.documents := by
  obtain ⟨block, -, rfl⟩ := List.mem_map.mp h
  exact readDocument_fileName _ _ _

/-- Blocks of one document differ by their index. -/
theorem names_nodup : v.names.Nodup := by
  have hindices : (v.names.map readIndex).Nodup := by
    have hread : v.names.map readIndex = v.blocks.map Block.index := by
      rw [names, List.map_map]
      refine List.map_congr_left fun block _ ↦ ?_
      rw [Function.comp_apply, nameOf, readIndex_fileName]
    rw [hread, blocks, Fence.map_index_extract]
    exact List.nodup_range'
  exact List.Nodup.of_map readIndex hindices

/-- Every document with blocks is counted. -/
theorem documents_after :
    (v.after b).checker.documents =
      v.before.checker.documents + if v.blocks = [] then 0 else 1 := by
  by_cases h : v.blocks = []
  · rw [(run_empty b h).2, if_pos h, Nat.add_zero]
  · rw [if_neg h]
    exact (numbered_alike b h).documents

theorem lt_documents_after {name : String} (h : name ∈ v.names) :
    readDocument name < (v.after b).checker.documents := by
  have hne : v.blocks ≠ [] := by
    rintro hempty
    rw [names, hempty] at h
    exact nomatch h
  rw [v.readDocument_of_mem h, documents_after, if_neg hne]
  exact Nat.lt_succ_self _

end Visit

/-- Filing blocks touches no other directory. -/
theorem mapM_fileBlock_spares (dir : Dir) (document : Nat) (source : String) (blocks : List Block)
    (area : Area) :
    area.Spares dir.id ((blocks.mapM (fileBlock (some dir) document source)).run area).state := by
  induction blocks generalizing area with
  | nil => exact .refl dir.id area
  | cons block rest ih =>
    rw [(Act.run_mapM_cons (fileBlock (some dir) document source) area block rest).2]
    exact (fileBlock_spares dir document source block area).trans (ih _)

/-- A visit touches no directory but that of its checker. -/
theorem Visit.spares (b : Backend ω π) (v : Visit ω π) {dir : Dir}
    (h : v.before.checker.artifacts = some dir) :
    v.before.area.Spares dir.id (v.after b).area := by
  cases hblocks : v.blocks with
  | nil =>
    rw [(v.run_empty b hblocks).2]
    exact .refl dir.id _
  | cons block rest =>
    obtain ⟨p, w, hoffers⟩ | ⟨e, -, harea⟩ := v.offered_or_refused b hblocks
    · obtain ⟨-, -, -, -, harea, -⟩ := v.offered b hoffers
      rw [harea, h]
      exact mapM_fileBlock_spares dir _ _ _ _
    · rw [harea, h]
      exact fileBlock_spares dir _ _ _ _

/-- Names that some of the blocks were filed under. -/
theorem filterMap_fileName?_sublist {checked : List CheckedBlock} {nameOf : Block → String}
    (h : ∀ c ∈ checked, ∀ name, c.fileName? = some name → name = nameOf c.block) :
    (checked.filterMap CheckedBlock.fileName?).Sublist
      ((checked.map CheckedBlock.block).map nameOf) := by
  induction checked with
  | nil => exact .slnil
  | cons c rest ih =>
    obtain ⟨hfirst, hrest⟩ := List.forall_mem_cons.mp h
    cases hname : c.fileName? with
    | none =>
      rw [List.filterMap_cons_none hname]
      exact (ih hrest).cons _
    | some name =>
      rw [List.filterMap_cons_some hname, hfirst name hname]
      exact (ih hrest).cons_cons _

/-- Blocks that are filed under names of their own become new files, each with its own code, and
those that cannot be kept leave nothing. -/
theorem folder_filed {dir : Dir} {document : Nat} {source : String} {area : Area}
    {files : List (String × String)} {checked : List CheckedBlock}
    (hnames : checked.map CheckedBlock.fileName? =
      (((checked.map CheckedBlock.block).mapM
        (fileBlock (some dir) document source)).run area).value)
    (hfolder : area.folder? dir.id = some files)
    (hnodup : (checked.map fun c ↦ fileName document source c.block.index).Nodup)
    (hfree : ∀ c ∈ checked, fileName document source c.block.index ∉ files.map Prod.fst) :
    (((checked.map CheckedBlock.block).mapM
        (fileBlock (some dir) document source)).run area).state.folder? dir.id =
      some (files ++ checked.filterMap CheckedBlock.file?) ∧
    ∀ c ∈ checked, ∀ name, c.fileName? = some name →
      name = fileName document source c.block.index := by
  induction checked generalizing area files with
  | nil =>
    refine ⟨?_, fun c hc ↦ absurd hc List.not_mem_nil⟩
    rw [List.filterMap_nil, List.append_nil]
    exact hfolder
  | cons c rest ih =>
    obtain ⟨hvalue, hstate⟩ := Act.run_mapM_cons (fileBlock (some dir) document source) area
      c.block (rest.map CheckedBlock.block)
    rw [List.map_cons, List.map_cons, hvalue] at hnames
    rw [List.map_cons, hstate]
    obtain ⟨hname, hothers⟩ := List.cons.inj hnames
    obtain ⟨hown, hnodup'⟩ := List.nodup_cons.mp hnodup
    obtain ⟨hfree', hrest⟩ := List.forall_mem_cons.mp hfree
    obtain ⟨hfiled, hkept⟩ | ⟨hfiled, hkept⟩ :=
      fileBlock_cases dir document source c.block area hfolder hfree'
    · -- The block was not kept, so the others meet the directory as it was.
      obtain ⟨hafter, hown'⟩ := ih hothers hkept hnodup' hrest
      have hnone : c.file? = none := by rw [CheckedBlock.file?, hname, hfiled, Option.map_none]
      refine ⟨?_, List.forall_mem_cons.mpr ⟨?_, hown'⟩⟩
      · rw [hafter, List.filterMap_cons_none hnone]
      · intro name hc
        rw [hname, hfiled] at hc
        exact nomatch hc
    · -- The block is one more file, whose name is none of the others'.
      have hsome : c.file? = some (fileName document source c.block.index, c.block.code) := by
        rw [CheckedBlock.file?, hname, hfiled, Option.map_some]
      have hrest' : ∀ d ∈ rest, fileName document source d.block.index ∉
          (files ++ [(fileName document source c.block.index, c.block.code)]).map Prod.fst := by
        intro d hd
        rw [List.map_append, List.mem_append, not_or]
        refine ⟨hrest d hd, fun hsame ↦ hown ?_⟩
        have hsame' : fileName document source d.block.index =
            fileName document source c.block.index := List.mem_singleton.mp hsame
        exact List.mem_map.mpr ⟨d, hd, hsame'⟩
      obtain ⟨hafter, hown'⟩ := ih hothers hkept hnodup' hrest'
      refine ⟨?_, List.forall_mem_cons.mpr ⟨?_, hown'⟩⟩
      · rw [hafter, List.filterMap_cons_some hsome, List.append_assoc, List.singleton_append]
      · intro name hc
        rw [hname, hfiled] at hc
        exact (Option.some.inj hc).symm

namespace Visit

variable {b : Backend ω π} {v : Visit ω π}

/-- What is left of a visit has names of the visit, none of them twice. -/
theorem Leaves.sublist {left : List (String × String)} (h : v.Leaves b left)
    (hblocks : ∀ report, v.result b = .ok report →
      report.blocks.map CheckedBlock.block = v.blocks) :
    (left.map Prod.fst).Sublist v.names := by
  cases h with
  | reported report hresult hnames =>
    have hkeys : (report.blocks.filterMap CheckedBlock.file?).map Prod.fst =
        report.blocks.filterMap CheckedBlock.fileName? := by
      rw [List.map_filterMap]
      refine List.filterMap_congr fun c _ ↦ ?_
      rw [CheckedBlock.file?, Option.map_map]
      exact Option.map_id_apply
    rw [hkeys, names, ← hblocks report hresult]
    exact filterMap_fileName?_sublist hnames
  | refused e hresult => exact List.nil_sublist _
  | abandoned e hresult block hblock hfirst =>
    exact List.singleton_sublist.mpr (List.mem_map_of_mem hblock)

theorem blocks_of_reported {report : Report} (h : v.result b = .ok report) :
    report.blocks.map CheckedBlock.block = v.blocks := by
  cases hblocks : v.blocks with
  | nil =>
    obtain ⟨hempty, -⟩ := v.run_empty b hblocks
    rw [Except.ok.inj (h.symm.trans hempty)]
    rfl
  | cons block rest =>
    obtain ⟨p, w, hoffers⟩ | ⟨e, herror, -⟩ := v.offered_or_refused b hblocks
    · obtain ⟨hresult, hchecked, -⟩ := v.offered b hoffers
      rw [Except.ok.inj (h.symm.trans hresult), Report.ofBlocks_blocks, hchecked, hblocks]
    · exact nomatch h.symm.trans herror

end Visit

section

variable {b : Backend ω π} {dir : Dir} {files : List (String × String)}

/-- What a visit adds is counted from then on. -/
theorem Filing.after {v : Visit ω π} (h : Filing dir v.before files)
    {left : List (String × String)} (hleft : v.Leaves b left)
    (hfolder : (v.after b).area.folder? dir.id = some (files ++ left)) :
    Filing dir (v.after b) (files ++ left) := by
  have hsublist := hleft.sublist fun report ↦ Visit.blocks_of_reported
  have hmem : ∀ file ∈ left, file.1 ∈ v.names := by
    intro file hfile
    exact hsublist.subset (List.mem_map_of_mem hfile)
  refine ⟨(v.settings b).2.2.trans h.artifacts, hfolder, ?_, ?_⟩
  · rw [List.map_append]
    refine List.nodup_append.mpr ⟨h.nodup, hsublist.nodup v.names_nodup, ?_⟩
    intro name hold name' hnew hsame
    obtain ⟨file, hfile, rfl⟩ := List.mem_map.mp hold
    obtain ⟨file', hfile', rfl⟩ := List.mem_map.mp hnew
    have hcounted := h.counted file hfile
    rw [hsame, v.readDocument_of_mem (hmem file' hfile')] at hcounted
    exact Nat.lt_irrefl _ hcounted
  · intro file hfile
    rcases List.mem_append.mp hfile with hold | hnew
    · have hcounted := h.counted file hold
      have hmore := v.documents_after b
      omega
    · exact v.lt_documents_after b (hmem file hnew)

/-- A visit leaves files in the directory and changes none that is there. -/
theorem Filing.leaves {v : Visit ω π} (h : Filing dir v.before files) :
    ∃ left, v.Leaves b left ∧ Filing dir (v.after b) (files ++ left) := by
  have hfree : ∀ block ∈ v.blocks, v.nameOf block ∉ files.map Prod.fst := by
    intro block hblock hmem
    obtain ⟨file, hfile, hname⟩ := List.mem_map.mp hmem
    have hcounted := h.counted file hfile
    rw [hname, v.readDocument_of_mem (List.mem_map_of_mem hblock)] at hcounted
    exact Nat.lt_irrefl _ hcounted
  suffices hfolder : ∃ left, v.Leaves b left ∧
      (v.after b).area.folder? dir.id = some (files ++ left) by
    obtain ⟨left, hleft, hfolder⟩ := hfolder
    exact ⟨left, hleft, h.after hleft hfolder⟩
  cases hblocks : v.blocks with
  | nil =>
    obtain ⟨hresult, hafter⟩ := v.run_empty b hblocks
    refine ⟨[], .reported _ hresult fun c hc ↦ absurd hc List.not_mem_nil, ?_⟩
    rw [hafter, List.append_nil]
    exact h.folder
  | cons block rest =>
    obtain ⟨p, w, hoffers⟩ | ⟨e, hresult, harea⟩ := v.offered_or_refused b hblocks
    · obtain ⟨hresult, hchecked, -, hnames, harea, -⟩ := v.offered b hoffers
      have hnodup := v.names_nodup
      rw [h.artifacts, ← hchecked] at hnames harea
      rw [Visit.names, ← hchecked, List.map_map] at hnodup
      obtain ⟨hfiled, hown⟩ := folder_filed hnames h.folder hnodup fun c hc ↦
        hfree c.block (hchecked ▸ List.mem_map_of_mem hc)
      refine ⟨_, .reported _ hresult ?_, ?_⟩
      · rwa [Report.ofBlocks_blocks]
      · rw [harea, Report.ofBlocks_blocks]
        exact hfiled
    · have hfirst : block ∈ v.blocks := hblocks ▸ List.mem_cons_self
      rw [h.artifacts] at harea
      rw [harea]
      obtain ⟨-, hkept⟩ | ⟨-, hkept⟩ := fileBlock_cases dir v.before.checker.documents v.source
        block v.before.area h.folder (hfree block hfirst)
      · refine ⟨[], .refused e hresult, ?_⟩
        rw [hkept, List.append_nil]
      · refine ⟨_, .abandoned e hresult block hfirst ?_, hkept⟩
        have hindices := Fence.map_index_extract v.before.checker.language v.text
        change v.blocks.map Block.index = List.range' 0 v.blocks.length at hindices
        rw [hblocks] at hindices
        exact (List.cons.inj hindices).1

/-- Over a run the directory comes to hold what the visits leave, one after the other. -/
theorem Follow.filing {s t : Scene ω π} {vs : List (Visit ω π)} (h : Follow b s vs t)
    (hfiling : Filing dir s files) :
    ∃ left, List.Forall₂ (Visit.Leaves b) vs left ∧ Filing dir t (files ++ left.flatten) := by
  induction vs generalizing s files with
  | nil =>
    obtain rfl : s = t := h
    exact ⟨[], .nil, (List.append_nil files).symm ▸ hfiling⟩
  | cons v rest ih =>
    obtain ⟨rfl, hrest⟩ := h
    obtain ⟨left, hleft, hafter⟩ := hfiling.leaves (b := b)
    obtain ⟨more, hmore, hend⟩ := ih hrest hafter
    refine ⟨left :: more, .cons hleft hmore, ?_⟩
    rw [List.flatten_cons, ← List.append_assoc]
    exact hend

/-- Documents are counted up, so blocks of different documents have different names too. -/
theorem Follow.names {s t : Scene ω π} {vs : List (Visit ω π)} (h : Follow b s vs t) :
    (vs.flatMap Visit.names).Nodup ∧
      ∀ name ∈ vs.flatMap Visit.names, s.checker.documents ≤ readDocument name := by
  induction vs generalizing s with
  | nil => exact ⟨List.nodup_nil, fun name hname ↦ absurd hname List.not_mem_nil⟩
  | cons v rest ih =>
    obtain ⟨rfl, hrest⟩ := h
    obtain ⟨hnodup, hlater⟩ := ih hrest
    rw [List.flatMap_cons]
    refine ⟨List.nodup_append.mpr ⟨v.names_nodup, hnodup, ?_⟩, ?_⟩
    · rintro name hname _ hname' rfl
      have hbefore := v.lt_documents_after b hname
      have hafter := hlater name hname'
      omega
    · intro name hname
      rcases List.mem_append.mp hname with hname | hname
      · exact Nat.le_of_eq (v.readDocument_of_mem hname).symm
      · have hmore := v.documents_after b
        have hafter := hlater name hname
        omega

end

/-- No block file takes the place of another. The names for all blocks of a run are different, since
the number of the document and the index of the block can be read off them, and each stands for a
file in the directory itself. A directory that was empty at first holds in the end what the visits
left in it, one after the other: a block that was reported with the name of a file is all that the
file holds. -/
theorem block_files_apart (b : Backend ω π) (start : Scene ω π) (tasks : List Task) :
    let vs := visits b start tasks
    (vs.flatMap Visit.names).Nodup ∧
    (∀ v ∈ vs, ∀ block ∈ v.blocks,
      readDocument (v.nameOf block) = v.before.checker.documents ∧
      readIndex (v.nameOf block) = block.index ∧
      (∃ document index, Formed (v.nameOf block) document (stem v.source) index) ∧
      Path.Entry (v.nameOf block)) ∧
    ∀ dir, start.checker.artifacts = some dir → start.area.folder? dir.id = some [] →
      ∃ left, List.Forall₂ (Visit.Leaves b) vs left ∧
        (afterTasks b start tasks).area.folder? dir.id = some left.flatten ∧
        (left.flatten.map Prod.fst).Nodup ∧
        ∀ v ∈ vs, ∀ report, v.result b = .ok report → ∀ c ∈ report.blocks, ∀ name,
          c.fileName? = some name →
          ∀ code, (name, code) ∈ left.flatten ↔ code = c.block.code := by
  intro vs
  have hfollow : Follow b start vs (afterTasks b start tasks) := follow_visits start tasks
  refine ⟨hfollow.names.1, ?_, ?_⟩
  · intro v hv block hblock
    have hformed := fileName_formed v.before.checker.documents v.source block.index
    exact ⟨readDocument_fileName _ _ _, readIndex_fileName _ _ _, ⟨_, _, hformed⟩, hformed.entry⟩
  · intro dir hartifacts hempty
    have hstart : Filing dir start [] :=
      ⟨hartifacts, hempty, List.nodup_nil, fun file hfile ↦ absurd hfile List.not_mem_nil⟩
    obtain ⟨left, hleft, hend⟩ := hfollow.filing hstart
    rw [List.nil_append] at hend
    refine ⟨left, hleft, hend.folder, hend.nodup, ?_⟩
    intro v hv report hresult c hc name hname code
    have hmem : (name, c.block.code) ∈ left.flatten := by
      obtain ⟨own, hown, hleaves⟩ := exists_partner hleft v hv
      refine List.mem_flatten.mpr ⟨own, hown, ?_⟩
      cases hleaves with
      | reported report' hresult' hnames =>
        obtain rfl : report = report' := Except.ok.inj (hresult.symm.trans hresult')
        refine List.mem_filterMap.mpr ⟨c, hc, ?_⟩
        rw [CheckedBlock.file?, hname, Option.map_some]
      | refused e herror => exact nomatch hresult.symm.trans herror
      | abandoned e herror => exact nomatch hresult.symm.trans herror
    constructor
    · intro hcode
      have hsame := List.inj_on_of_nodup_map hend.nodup hcode hmem rfl
      exact congrArg Prod.snd hsame
    · rintro rfl
      exact hmem

/-- A parser that finds nothing wrong. -/
def obliging : Backend Nat Unit where
  name _ := "obliging"
  prepare := pure (.ok ())
  parse _ _ := pure (.ok (), .zero)

/-- A checker with an empty directory whose supply fails when it is asked for the first time. -/
def retrying : Scene Nat Unit where
  checker := { Checker.new "mermaid" none fun calls ↦
    ⟨if calls = 0 then .error (.unreadable "parser.js" .absent) else .ok (), calls + 1, []⟩ with
    artifacts := some ⟨0, "/tmp/mermaid-check-1"⟩ }
  area := { Area.fresh "/tmp" fun _ ↦ "1" with folders := [some []] }
  world := 0

/-- Two texts of one name, which looks like the name of a block file itself. -/
def retryingTasks : List Task :=
  [.text "1-block-1.md" "```mermaid\npie\n```",
    .text "1-block-1.md" "```mermaid\npie\n```\n```mermaid\nflow\n```"]

/-- The first text ends with an error and leaves its block, the second one leaves both of its. -/
theorem block_files_apart_retrying :
    ∃ left, List.Forall₂ (Visit.Leaves obliging) (visits obliging retrying retryingTasks) left ∧
      left.flatten = [("000-1-block-1-block-0.mmd", "pie"), ("001-1-block-1-block-0.mmd", "pie"),
        ("001-1-block-1-block-1.mmd", "flow")] := by
  obtain ⟨-, -, hfolders⟩ := block_files_apart obliging retrying retryingTasks
  obtain ⟨left, hleft, hfolder, -⟩ := hfolders ⟨0, "/tmp/mermaid-check-1"⟩ rfl rfl
  refine ⟨left, hleft, Option.some.inj (hfolder.symm.trans ?_)⟩
  decide +kernel

end FenceLint
