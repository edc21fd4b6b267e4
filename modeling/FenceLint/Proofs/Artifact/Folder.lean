import FenceLint.Artifact.Area

/-!
The directory of blocks. Filing a block touches no directory but its own, makes none and removes
none; under a name that is not in use it adds one file or, when it fails, nothing.
-/

set_option autoImplicit false

namespace FenceLint.Artifact

/-- Files a block in a directory, if there is one, under a name that is given when that worked. -/
def fileBlock (dir? : Option Dir) (document : Nat) (source : String) (block : Block) :
    Act Area (Option String) :=
  match dir? with
  | none => pure none
  | some dir => Except.toOption <$> dir.writeBlock document source block

namespace Area

/-- The directories are the same ones, and no files have changed except in one of them. -/
structure Spares (id : Nat) (area area' : Area) : Prop where
  length : area'.folders.length = area.folders.length
  others : ∀ other, other ≠ id → area'.folder? other = area.folder? other
  present : (area'.folder? id).isSome = (area.folder? id).isSome

theorem Spares.refl (id : Nat) (area : Area) : area.Spares id area where
  length := rfl
  others _ _ := rfl
  present := rfl

theorem Spares.trans {id : Nat} {area area' area'' : Area} (h : area.Spares id area')
    (h' : area'.Spares id area'') : area.Spares id area'' where
  length := h'.length.trans h.length
  others other hother := (h'.others other hother).trans (h.others other hother)
  present := h'.present.trans h.present

/-- Under a name that is not in use a file is added to the others. -/
theorem put_of_not_mem {name : String} {files : List (String × String)}
    (h : name ∉ files.map Prod.fst) (code : String) :
    put name code files = files ++ [(name, code)] := by
  have hfree : files.any (·.1 == name) = false := by
    rw [List.any_eq_false]
    intro file hfile
    rw [beq_iff_eq]
    rintro rfl
    exact h (List.mem_map_of_mem hfile)
  rw [put, hfree]
  rfl

section

variable (area : Area) (id : Nat) (name code : String)

/-- A write fails without a trace in any directory, or it puts the file into its own. -/
theorem write_cases :
    (∃ fault, area.write id name code = (.error fault, { area with writes := area.writes + 1 })) ∨
    ∃ files, area.folder? id = some files ∧ area.write id name code =
      (.ok (), { area with
        writes := area.writes + 1
        folders := area.folders.set id (some (put name code files)) }) := by
  unfold write
  cases hfault : area.fault? area.writes with
  | some fault => exact .inl ⟨fault, rfl⟩
  | none =>
    cases hfolder : area.folder? id with
    | none => exact .inl ⟨.absent, rfl⟩
    | some files =>
      by_cases hlimit : nameLimit < name.utf8ByteSize
      · exact .inl ⟨.nameTooLong, if_pos hlimit⟩
      · exact .inr ⟨files, rfl, if_neg hlimit⟩

/-- What becomes of directories when one of them gets new contents. -/
theorem folder?_set {files : List (String × String)} (h : area.folder? id = some files)
    (contents : Option (List (String × String))) (other : Nat) :
    ({ area with folders := area.folders.set id contents } : Area).folder? other =
      if other = id then contents else area.folder? other := by
  have hlt : id < area.folders.length := by
    rcases Nat.lt_or_ge id area.folders.length with hlt | hge
    · exact hlt
    · rw [folder?, List.getElem?_eq_none hge] at h
      exact nomatch h
  by_cases hother : other = id
  · subst hother
    rw [if_pos rfl, folder?, List.getElem?_set_self hlt]
    rfl
  · rw [if_neg hother, folder?, List.getElem?_set_ne (Ne.symm hother), folder?]

theorem write_spares : area.Spares id (area.write id name code).2 := by
  obtain ⟨fault, hwrite⟩ | ⟨files, hfolder, hwrite⟩ := area.write_cases id name code
  · rw [hwrite]
    exact ⟨rfl, fun _ _ ↦ rfl, rfl⟩
  · rw [hwrite]
    have hfolders := area.folder?_set id hfolder (some (put name code files))
    refine ⟨List.length_set, fun other hother ↦ ?_, ?_⟩
    · exact (hfolders other).trans (if_neg hother)
    · refine (congrArg Option.isSome ((hfolders id).trans (if_pos rfl))).trans ?_
      rw [hfolder]
      rfl

end

end Area

section

variable (dir : Dir) (document : Nat) (source : String) (block : Block) (area : Area)

theorem run_fileBlock :
    let written := area.write dir.id (fileName document source block.index) block.code
    ((fileBlock (some dir) document source block).run area).value =
        written.1.toOption.map (fun _ ↦ fileName document source block.index) ∧
      ((fileBlock (some dir) document source block).run area).state = written.2 := by
  simp only [fileBlock, Dir.writeBlock, Act.run_map, Act.run_bind, Act.run_modifyGet]
  cases (area.write dir.id (fileName document source block.index) block.code).1 <;>
    exact ⟨rfl, rfl⟩

theorem fileBlock_spares :
    area.Spares dir.id ((fileBlock (some dir) document source block).run area).state := by
  rw [(run_fileBlock dir document source block area).2]
  exact area.write_spares _ _ _

/-- Under a name that is not in use a block becomes a new file or leaves no trace. -/
theorem fileBlock_cases {files : List (String × String)} (h : area.folder? dir.id = some files)
    (hfree : fileName document source block.index ∉ files.map Prod.fst) :
    let name := fileName document source block.index
    let r := (fileBlock (some dir) document source block).run area
    (r.value = none ∧ r.state.folder? dir.id = some files) ∨
      (r.value = some name ∧ r.state.folder? dir.id = some (files ++ [(name, block.code)])) := by
  intro name r
  obtain ⟨hvalue, hstate⟩ := run_fileBlock dir document source block area
  change r.value = _ at hvalue
  change r.state = _ at hstate
  obtain ⟨fault, hwrite⟩ | ⟨files', hfolder, hwrite⟩ := area.write_cases dir.id name block.code
  · rw [hwrite] at hvalue hstate
    rw [hvalue, hstate]
    exact .inl ⟨rfl, h⟩
  · obtain rfl : files = files' := Option.some.inj (h.symm.trans hfolder)
    rw [hwrite] at hvalue hstate
    rw [hvalue, hstate, ← Area.put_of_not_mem hfree]
    exact .inr ⟨rfl, (area.folder?_set dir.id hfolder _ dir.id).trans (if_pos rfl)⟩

end

/-- The directory that is made next. -/
def Area.nextDir (area : Area) : Dir :=
  ⟨area.folders.length,
    area.root ++ "/" ++ Dir.namePrefix ++ area.suffix area.folders.length⟩

/-- The area with this directory in it. -/
def Area.grown (area : Area) : Area := { area with folders := area.folders ++ [some []] }

section

variable (area : Area)

theorem run_create_refused {fault : Fault} (h : area.refusal? = some fault) :
    Dir.create.run area = ⟨.error (.unreadable area.root fault), area, []⟩ := by
  simp [Dir.create, h]

theorem run_create_made (h : area.refusal? = none) :
    (Dir.create.run area).value = .ok area.nextDir ∧
      (Dir.create.run area).state = area.grown := by
  simp [Dir.create, h, Area.nextDir, Area.grown]

/-- A new directory is empty, and it takes the place of none. -/
theorem folder?_grown (other : Nat) :
    area.grown.folder? other =
      if other = area.nextDir.id then some [] else area.folder? other := by
  change _ = if other = area.folders.length then some [] else area.folder? other
  rcases Nat.lt_trichotomy other area.folders.length with hlt | heq | hgt
  · rw [if_neg (Nat.ne_of_lt hlt), Area.folder?, Area.grown, List.getElem?_append_left hlt,
      Area.folder?]
  · rw [if_pos heq, heq, Area.folder?, Area.grown, List.getElem?_concat_length]
    rfl
  · have hnew : (area.folders ++ [some []])[other]? = none :=
      List.getElem?_eq_none (by rw [List.length_append]; exact hgt)
    have hold : area.folders[other]? = none := List.getElem?_eq_none (Nat.le_of_lt hgt)
    rw [if_neg (Nat.ne_of_gt hgt), Area.folder?, Area.grown, hnew, Area.folder?, hold]

theorem folder?_nextDir : area.folder? area.nextDir.id = none := by
  rw [Area.folder?, Area.nextDir, List.getElem?_eq_none (Nat.le_refl _)]
  rfl

/-- A directory that is closed is gone, and no other is touched. -/
theorem folder?_close (dir : Dir) (other : Nat) :
    (dir.close.run area).state.folder? other =
      if other = dir.id then none else area.folder? other := by
  cases hfolder : area.folder? dir.id with
  | some files =>
    have hclosed : (dir.close.run area).state = area.remove dir.id := by
      simp [Dir.close, Dir.discard, hfolder]
    rw [hclosed]
    exact area.folder?_set dir.id hfolder none other
  | none =>
    have hclosed : (dir.close.run area).state = area := by
      simp [Dir.close, hfolder]
    rw [hclosed]
    by_cases hother : other = dir.id
    · rw [if_pos hother, hother, hfolder]
    · rw [if_neg hother]

end

end FenceLint.Artifact
