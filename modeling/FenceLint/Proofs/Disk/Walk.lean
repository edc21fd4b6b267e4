import FenceLint.Proofs.Disk.Tree

/-!
Walks as a relation: a walk goes part by part from one place to the next, and the links that it
follows on the way are its own (`walk_eq_ok_iff`). A walk over several parts is a walk over the
first ones and, from where this ends, one over the others (`walks_append_iff`), so that what leads
to the same place in the same way may stand in for it. What is met in a row of directories is there
if nothing keeps any of them from being listed (`mapM_id_eq_ok_iff`).
-/

set_option autoImplicit false

namespace FenceLint

namespace Disk

/-- Where a walk stands: the links it may still follow, and the names from the root, the last one
first. -/
structure Stand where
  links : ℕ
  here : List String

/-- A part of a path that is looked for in the folder. -/
structure LookedFor (part : String) : Prop where
  counts : Path.counts part = true
  ne_above : part ≠ ".."
  size_le : part.utf8ByteSize ≤ nameLimit

/-- A folder that paths lead on from. Of a place the last name comes first. -/
structure Passable (disk : Disk) (here : List String) (entries : List (String × Node)) : Prop where
  folder : disk.root.descend here.reverse = some (.folder entries)
  unbarred : disk.barred? here.reverse = none

/-- The walks through a disk, part by part. A part is only ever taken in a folder. -/
inductive Walks (disk : Disk) : Stand → List String → Stand → Prop
  | done (s : Stand) : Walks disk s [] s
  /-- An empty part or a dot leads nowhere; an empty one does not even ask to be let through. -/
  | stay {s t : Stand} {entries : List (String × Node)} {part : String} {rest : List String}
      (hfolder : disk.root.descend s.here.reverse = some (.folder entries))
      (hpart : Path.counts part = false) (hpass : part = "" ∨ disk.barred? s.here.reverse = none)
      (h : Walks disk s rest t) : Walks disk s (part :: rest) t
  | up {s t : Stand} {entries : List (String × Node)} {rest : List String}
      (hfolder : Passable disk s.here entries)
      (h : Walks disk ⟨s.links, s.here.tail⟩ rest t) : Walks disk s (".." :: rest) t
  /-- The parts of a link come before what is left. -/
  | follow {left : ℕ} {here : List String} {t : Stand} {entries : List (String × Node)}
      {part target : String} {rest : List String} (hfolder : Passable disk here entries)
      (hpart : LookedFor part) (hlink : entries.lookup part = some (.link target))
      (h : Walks disk ⟨left, if Path.isAbsolute target then [] else here⟩
        (Path.parts target ++ rest) t) : Walks disk ⟨left + 1, here⟩ (part :: rest) t
  | enter {s t : Stand} {entries : List (String × Node)} {part : String} {node : Node}
      {rest : List String} (hfolder : Passable disk s.here entries)
      (hpart : LookedFor part) (hnode : entries.lookup part = some node)
      (hlink : ∀ target, node ≠ .link target) (h : Walks disk ⟨s.links, part :: s.here⟩ rest t) :
      Walks disk s (part :: rest) t

section Steps

variable {disk : Disk} {links : ℕ} {here place rest : List String} {part : String}
  {entries : List (String × Node)}

theorem counts_eq_false_iff : Path.counts part = false ↔ part = "" ∨ part = "." := by
  rw [Path.counts, Bool.and_eq_false_iff, bne_eq_false_iff_eq, bne_eq_false_iff_eq]

theorem LookedFor.ne_empty (h : LookedFor part) : part ≠ "" :=
  fun hempty ↦ absurd (counts_eq_false_iff.mpr (.inl hempty)) (by simp [h.counts])

theorem LookedFor.ne_dot (h : LookedFor part) : part ≠ "." :=
  fun hdot ↦ absurd (counts_eq_false_iff.mpr (.inr hdot)) (by simp [h.counts])

/-- What a walk takes in a folder is a part that needs no looking for, or one that is there. -/
theorem of_walk_eq_ok (h : walk disk links here (part :: rest) = .ok place) :
    ∃ entries, disk.root.descend here.reverse = some (.folder entries) ∧
      (part = "" ∨ Passable disk here entries ∧ (part = "." ∨ part = ".." ∨
        LookedFor part ∧ ∃ node, entries.lookup part = some node)) := by
  rw [walk] at h
  split at h
  · rename_i entries hfolder
    refine ⟨entries, hfolder, ?_⟩
    by_cases hempty : part = ""
    · exact .inl hempty
    · rw [if_neg hempty] at h
      cases hbarred : disk.barred? here.reverse with
      | some fault =>
        rw [hbarred] at h
        cases h
      | none =>
        rw [hbarred] at h
        refine .inr ⟨⟨hfolder, hbarred⟩, ?_⟩
        dsimp only at h
        split_ifs at h with hdot habove hsize
        · exact .inl hdot
        · exact .inr (.inl habove)
        · have hcounts : Path.counts part = true := by
            rw [← Bool.not_eq_false, counts_eq_false_iff]
            exact not_or.mpr ⟨hempty, hdot⟩
          refine .inr (.inr ⟨⟨hcounts, habove, not_lt.mp hsize⟩, ?_⟩)
          cases hlookup : entries.lookup part with
          | none =>
            rw [hlookup] at h
            cases h
          | some node => exact ⟨node, rfl⟩
  · cases h
  · cases h

theorem walk_stay (hfolder : disk.root.descend here.reverse = some (.folder entries))
    (hpart : Path.counts part = false) (hpass : part = "" ∨ disk.barred? here.reverse = none) :
    walk disk links here (part :: rest) = walk disk links here rest := by
  rw [walk, hfolder]
  obtain rfl | rfl := counts_eq_false_iff.mp hpart
  · simp
  · simp [hpass.resolve_left (by decide)]

theorem walk_up (hfolder : Passable disk here entries) :
    walk disk links here (".." :: rest) = walk disk links here.tail rest := by
  rw [walk, hfolder.folder]
  simp [hfolder.unbarred]

/-- A link is not followed once no more links may be. -/
theorem walk_follow_zero {target : String} (hfolder : Passable disk here entries)
    (hpart : LookedFor part) (hlink : entries.lookup part = some (.link target)) :
    walk disk 0 here (part :: rest) = .error .linkLoop := by
  rw [walk, hfolder.folder]
  simp [hfolder.unbarred, hpart.ne_empty, hpart.ne_dot, hpart.ne_above, hpart.size_le.not_gt, hlink]

theorem walk_follow_succ {target : String} (hfolder : Passable disk here entries)
    (hpart : LookedFor part) (hlink : entries.lookup part = some (.link target)) :
    walk disk (links + 1) here (part :: rest) =
      walk disk links (if Path.isAbsolute target then [] else here)
        (Path.parts target ++ rest) := by
  rw [walk, hfolder.folder]
  simp [hfolder.unbarred, hpart.ne_empty, hpart.ne_dot, hpart.ne_above, hpart.size_le.not_gt, hlink]

theorem walk_enter {node : Node} (hfolder : Passable disk here entries)
    (hpart : LookedFor part) (hnode : entries.lookup part = some node)
    (hlink : ∀ target, node ≠ .link target) :
    walk disk links here (part :: rest) = walk disk links (part :: here) rest := by
  rw [walk, hfolder.folder]
  have hsize := hpart.size_le.not_gt
  cases node with
  | link target => exact absurd rfl (hlink target)
  | file text? executable =>
    simp [hfolder.unbarred, hpart.ne_empty, hpart.ne_dot, hpart.ne_above, hsize, hnode]
  | folder inside =>
    simp [hfolder.unbarred, hpart.ne_empty, hpart.ne_dot, hpart.ne_above, hsize, hnode]

end Steps

section Walks

variable {disk : Disk} {s t : Stand}

theorem exists_walks_of_walk {links : ℕ} {here place parts : List String}
    (h : walk disk links here parts = .ok place) :
    ∃ left, Walks disk ⟨links, here⟩ parts ⟨left, place⟩ := by
  -- a link uses up one of the links, any other part is one part less
  induction links using Nat.strongRecOn generalizing here parts with
  | ind links ihlinks =>
  induction parts generalizing here with
  | nil =>
    rw [walk] at h
    obtain rfl := Except.ok.inj h
    exact ⟨links, .done _⟩
  | cons part rest ih =>
    obtain ⟨entries, hplace, rfl | ⟨hfolder, rfl | rfl | ⟨hpart, node, hnode⟩⟩⟩ := of_walk_eq_ok h
    · have hpass : "" = "" ∨ disk.barred? here.reverse = none := .inl rfl
      obtain ⟨left, hwalks⟩ := ih (walk_stay hplace rfl hpass ▸ h)
      exact ⟨left, .stay hplace rfl hpass hwalks⟩
    · have hpass : "." = "" ∨ disk.barred? here.reverse = none := .inr hfolder.unbarred
      obtain ⟨left, hwalks⟩ := ih (walk_stay hplace rfl hpass ▸ h)
      exact ⟨left, .stay hplace rfl hpass hwalks⟩
    · obtain ⟨left, hwalks⟩ := ih (walk_up hfolder ▸ h)
      exact ⟨left, .up hfolder hwalks⟩
    · by_cases hlink : ∃ target, node = .link target
      · obtain ⟨target, rfl⟩ := hlink
        cases links with
        | zero =>
          rw [walk_follow_zero hfolder hpart hnode] at h
          cases h
        | succ left =>
          rw [walk_follow_succ hfolder hpart hnode] at h
          obtain ⟨last, hwalks⟩ := ihlinks left left.lt_succ_self h
          exact ⟨last, .follow hfolder hpart hnode hwalks⟩
      · rw [not_exists] at hlink
        rw [walk_enter hfolder hpart hnode hlink] at h
        obtain ⟨left, hwalks⟩ := ih h
        exact ⟨left, .enter hfolder hpart hnode hlink hwalks⟩

theorem Walks.walk_eq {parts : List String} (h : Walks disk s parts t) :
    walk disk s.links s.here parts = .ok t.here := by
  induction h with
  | done s => rw [walk]
  | stay hfolder hpart hpass h ih => rw [walk_stay hfolder hpart hpass, ih]
  | up hfolder h ih => rw [walk_up hfolder, ih]
  | follow hfolder hpart hlink h ih => rw [walk_follow_succ hfolder hpart hlink, ih]
  | enter hfolder hpart hnode hlink h ih => rw [walk_enter hfolder hpart hnode hlink, ih]

/-- A walk ends at a place if the parts lead there one by one. -/
theorem walk_eq_ok_iff {links : ℕ} {here place parts : List String} :
    walk disk links here parts = .ok place ↔
      ∃ left, Walks disk ⟨links, here⟩ parts ⟨left, place⟩ :=
  ⟨exists_walks_of_walk, fun ⟨_, h⟩ ↦ h.walk_eq⟩

/-- Walks one after the other are a walk over the parts of both. -/
theorem Walks.append {front back : List String} {mid : Stand} (hfront : Walks disk s front mid)
    (hback : Walks disk mid back t) : Walks disk s (front ++ back) t := by
  induction hfront with
  | done s => exact hback
  | stay hfolder hpart hpass h ih => exact .stay hfolder hpart hpass (ih hback)
  | up hfolder h ih => exact .up hfolder (ih hback)
  | follow hfolder hpart hlink h ih =>
    exact .follow hfolder hpart hlink (List.append_assoc _ _ back ▸ ih hback)
  | enter hfolder hpart hnode hlink h ih => exact .enter hfolder hpart hnode hlink (ih hback)

/-- A walk comes to where its first parts lead. -/
theorem Walks.exists_mid {front back : List String} (h : Walks disk s (front ++ back) t) :
    ∃ mid, Walks disk s front mid ∧ Walks disk mid back t := by
  generalize hparts : front ++ back = parts at h
  induction h generalizing front with
  | done s =>
    obtain ⟨rfl, rfl⟩ := List.append_eq_nil_iff.mp hparts
    exact ⟨s, .done s, .done s⟩
  | @stay s t entries part rest hfolder hpart hpass h ih =>
    rcases List.append_eq_cons_iff.mp hparts with ⟨rfl, rfl⟩ | ⟨front, rfl, hrest⟩
    · exact ⟨s, .done s, .stay hfolder hpart hpass h⟩
    · obtain ⟨mid, hfront, hback⟩ := ih hrest.symm
      exact ⟨mid, .stay hfolder hpart hpass hfront, hback⟩
  | @up s t entries rest hfolder h ih =>
    rcases List.append_eq_cons_iff.mp hparts with ⟨rfl, rfl⟩ | ⟨front, rfl, hrest⟩
    · exact ⟨s, .done s, .up hfolder h⟩
    · obtain ⟨mid, hfront, hback⟩ := ih hrest.symm
      exact ⟨mid, .up hfolder hfront, hback⟩
  | @follow left here t entries part target rest hfolder hpart hlink h ih =>
    rcases List.append_eq_cons_iff.mp hparts with ⟨rfl, rfl⟩ | ⟨front, rfl, rfl⟩
    · exact ⟨_, .done _, .follow hfolder hpart hlink h⟩
    · obtain ⟨mid, hfront, hback⟩ := ih (List.append_assoc _ _ _)
      exact ⟨mid, .follow hfolder hpart hlink hfront, hback⟩
  | @enter s t entries part node rest hfolder hpart hnode hlink h ih =>
    rcases List.append_eq_cons_iff.mp hparts with ⟨rfl, rfl⟩ | ⟨front, rfl, hrest⟩
    · exact ⟨s, .done s, .enter hfolder hpart hnode hlink h⟩
    · obtain ⟨mid, hfront, hback⟩ := ih hrest.symm
      exact ⟨mid, .enter hfolder hpart hnode hlink hfront, hback⟩

/-- Parts in front are walked first. -/
theorem walks_append_iff {front back : List String} :
    Walks disk s (front ++ back) t ↔
      ∃ mid, Walks disk s front mid ∧ Walks disk mid back t :=
  ⟨Walks.exists_mid, fun ⟨_, hfront, hback⟩ ↦ hfront.append hback⟩

/-- No part is taken anywhere but in a folder. -/
theorem Walks.exists_folder {part : String} {rest : List String}
    (h : Walks disk s (part :: rest) t) :
    ∃ entries, disk.root.descend s.here.reverse = some (.folder entries) := by
  cases h with
  | stay hfolder hpart hpass h => exact ⟨_, hfolder⟩
  | up hfolder h => exact ⟨_, hfolder.folder⟩
  | follow hfolder hpart hlink h => exact ⟨_, hfolder.folder⟩
  | enter hfolder hpart hnode hlink h => exact ⟨_, hfolder.folder⟩

/-- Nor in a folder that is barred, but for an empty part. -/
theorem Walks.unbarred {part : String} {rest : List String} (h : Walks disk s (part :: rest) t)
    (hpart : part ≠ "") : disk.barred? s.here.reverse = none := by
  cases h with
  | stay hfolder hcounts hpass h => exact hpass.resolve_left hpart
  | up hfolder h => exact hfolder.unbarred
  | follow hfolder hpart hlink h => exact hfolder.unbarred
  | enter hfolder hpart hnode hlink h => exact hfolder.unbarred

/-- Where a walk goes on to something, there is something. -/
theorem Walks.isSome_descend {parts : List String} (h : Walks disk s parts t)
    (ht : (disk.root.descend t.here.reverse).isSome) : (disk.root.descend s.here.reverse).isSome := by
  cases parts with
  | nil =>
    cases h
    exact ht
  | cons part rest =>
    obtain ⟨entries, hfolder⟩ := h.exists_folder
    rw [hfolder]
    rfl

/-- A part that is looked for is a name in the folder. A folder under that name is the next place,
and a file is the last one. -/
theorem Walks.exists_entry {part : String} {rest : List String}
    (h : Walks disk s (part :: rest) t) (hname : Path.IsName part) :
    ∃ entries node, disk.root.descend s.here.reverse = some (.folder entries) ∧
      entries.lookup part = some node ∧
      ((∃ target, node = .link target) ∨ Walks disk ⟨s.links, part :: s.here⟩ rest t) := by
  cases h with
  | stay hfolder hpart hpass h =>
    exact absurd (counts_eq_false_iff.mp hpart) (not_or.mpr ⟨hname.ne_empty, hname.ne_here⟩)
  | up hfolder h => exact absurd rfl hname.ne_above
  | follow hfolder hpart hlink h => exact ⟨_, _, hfolder.folder, hlink, .inl ⟨_, rfl⟩⟩
  | enter hfolder hpart hnode hlink h => exact ⟨_, _, hfolder.folder, hnode, .inr h⟩

/-- Parts that do not count lead nowhere. -/
theorem Walks.eq_of_counts {parts : List String} (h : Walks disk s parts t)
    (hparts : ∀ part ∈ parts, Path.counts part = false) : t = s := by
  induction h with
  | done s => rfl
  | stay hfolder hpart hpass h ih => exact ih fun part hmem ↦ hparts part (List.mem_cons_of_mem _ hmem)
  | up hfolder h ih => exact absurd (hparts ".." List.mem_cons_self) (by decide)
  | follow hfolder hpart hlink h ih =>
    exact absurd (hparts _ List.mem_cons_self) (by simp [hpart.counts])
  | enter hfolder hpart hnode hlink h ih =>
    exact absurd (hparts _ List.mem_cons_self) (by simp [hpart.counts])

end Walks

section Arrives

variable {disk : Disk} {path : String} {node : Node}

/-- A path that is looked up and whose walk ends at a stand. -/
structure Arrives (disk : Disk) (path : String) (s : Stand) : Prop where
  ne_empty : path ≠ ""
  nul_not_mem : '\x00' ∉ path.toList
  size_le : path.utf8ByteSize ≤ pathLimit
  walks : Walks disk ⟨linkLimit, disk.origin path⟩ (Path.parts path) s

/-- A path leads to a place, which is given by the names from the root. -/
def LeadsTo (disk : Disk) (path : String) (place : List String) : Prop :=
  ∃ left, Arrives disk path ⟨left, place.reverse⟩

theorem partsOf_eq_ok_iff {parts : List String} :
    partsOf path = .ok parts ↔ path ≠ "" ∧ '\x00' ∉ path.toList ∧ path.utf8ByteSize ≤ pathLimit ∧
      Path.parts path = parts := by
  unfold partsOf
  split_ifs with hempty hnul hsize
  · simp_all
  · simp_all
  · simp [hsize.not_ge]
  · simp_all

theorem locate_eq_ok_iff {place : List String} :
    disk.locate path = .ok place ↔ disk.LeadsTo path place := by
  unfold locate
  constructor
  · intro h
    cases hparts : partsOf path with
    | error fault =>
      rw [hparts] at h
      exact nomatch h
    | ok parts =>
      rw [hparts] at h
      obtain ⟨hne, hnul, hsize, rfl⟩ := partsOf_eq_ok_iff.mp hparts
      cases hwalk : walk disk linkLimit (disk.origin path) (Path.parts path) with
      | error fault =>
        simp only [bind, Except.bind, hwalk] at h
        exact nomatch h
      | ok here =>
        simp only [bind, Except.bind, hwalk] at h
        obtain rfl := Except.ok.inj h
        obtain ⟨left, hwalks⟩ := walk_eq_ok_iff.mp hwalk
        refine ⟨left, hne, hnul, hsize, ?_⟩
        rwa [List.reverse_reverse]
  · rintro ⟨left, hne, hnul, hsize, hwalks⟩
    rw [partsOf_eq_ok_iff.mpr ⟨hne, hnul, hsize, rfl⟩]
    simp only [bind, Except.bind, walk_eq_ok_iff.mpr ⟨left, hwalks⟩]
    exact congrArg Except.ok (List.reverse_reverse place)

theorem nodeAt_eq_ok_iff {place : List String} :
    disk.nodeAt place = .ok node ↔ disk.root.descend place = some node := by
  unfold nodeAt
  cases disk.root.descend place with
  | none => simp
  | some other => simp

/-- What is found at a path is what is at the place that it leads to. -/
theorem find_eq_ok_iff :
    disk.find path = .ok node ↔
      ∃ place, disk.LeadsTo path place ∧ disk.root.descend place = some node := by
  unfold find
  simp only [← locate_eq_ok_iff, ← nodeAt_eq_ok_iff]
  cases disk.locate path with
  | error fault => simp [bind, Except.bind]
  | ok place => simp [bind, Except.bind]

/-- What is read at a path is what is found there. -/
theorem find_of_read (h : disk.read path = .ok node) : disk.find path = .ok node := by
  unfold read at h
  unfold find
  cases hplace : disk.locate path with
  | error fault =>
    rw [hplace] at h
    exact nomatch h
  | ok place =>
    cases hnode : disk.nodeAt place with
    | error fault =>
      simp only [hplace, bind, Except.bind, hnode] at h
      exact nomatch h
    | ok other =>
      simp only [hplace, bind, Except.bind, hnode] at h ⊢
      split at h
      · exact nomatch h
      · exact h

/-- The names that are listed are those of the folder that is found. -/
theorem find_of_list {entries : List (String × Node)} (h : disk.list path = .ok entries) :
    disk.find path = .ok (.folder entries) := by
  unfold list at h
  split at h
  · rename_i others hread
    obtain rfl := Except.ok.inj h
    exact find_of_read hread
  · exact nomatch h
  · exact nomatch h

theorem read_unguarded (root : Node) (workingDir : List String) (path : String) :
    (unguarded root workingDir).read path = (unguarded root workingDir).find path := by
  unfold read find
  cases (unguarded root workingDir).locate path with
  | error fault => rfl
  | ok place =>
    change ((unguarded root workingDir).nodeAt place >>= pure) = _
    exact bind_pure _

/-- Where everything may be read, the names of a folder that is found are listed. -/
theorem list_unguarded {root : Node} {workingDir : List String} {entries : List (String × Node)}
    (h : (unguarded root workingDir).find path = .ok (.folder entries)) :
    (unguarded root workingDir).list path = .ok entries := by
  rw [list, read_unguarded, h]

/-- A path that leads to a file ends with a name. -/
theorem Arrives.not_endsWithSlash {s : Stand} (h : disk.Arrives path s)
    (hnode : disk.root.descend s.here.reverse = some node)
    (hfolder : ∀ entries, node ≠ .folder entries) :
    Path.endsWithSlash path = false := by
  by_contra hend
  obtain ⟨front, rfl⟩ := Path.exists_of_endsWithSlash (Bool.not_eq_false _ ▸ hend)
  have hwalks := h.walks
  rw [Path.parts_append_slash_end] at hwalks
  obtain ⟨mid, -, hempty⟩ := walks_append_iff.mp hwalks
  obtain ⟨entries, hentries⟩ := hempty.exists_folder
  obtain rfl : s = mid := hempty.eq_of_counts (by decide)
  exact hfolder entries (Option.some.inj (hnode.symm.trans hentries))

theorem Arrives.find_eq {s : Stand} (h : disk.Arrives path s)
    (hnode : disk.root.descend s.here.reverse = some node) : disk.find path = .ok node := by
  refine find_eq_ok_iff.mpr ⟨s.here.reverse, ⟨s.links, ?_⟩, hnode⟩
  rw [List.reverse_reverse]
  exact h

theorem ne_empty_of_find (h : disk.find path = .ok node) : path ≠ "" := by
  obtain ⟨place, ⟨left, harrives⟩, -⟩ := find_eq_ok_iff.mp h
  exact harrives.ne_empty

/-- Below a tree in which names stand for one thing, they do so in whatever is found. -/
theorem wellNamed_of_find (hdisk : disk.root.WellNamed) (h : disk.find path = .ok node) :
    node.WellNamed := by
  obtain ⟨place, -, hnode⟩ := find_eq_ok_iff.mp h
  exact hdisk.of_descend hnode

/-- A path is that of a regular file if it leads to one. -/
theorem isFile_iff :
    disk.isFile path = true ↔
      ∃ text? executable, disk.find path = .ok (.file text? executable) := by
  unfold isFile
  constructor
  · intro h
    split at h
    · rename_i text? executable hfind
      exact ⟨text?, executable, hfind⟩
    · exact absurd h Bool.false_ne_true
  · rintro ⟨text?, executable, hfind⟩
    rw [hfind]

end Arrives

section Listings

variable {ε α : Type} {met : List (Except ε α)}

/-- A row of results is a result if all of them are. -/
theorem mapM_id_eq_ok_iff {found : List α} : met.mapM id = .ok found ↔ met = found.map .ok := by
  constructor
  · intro h
    induction met generalizing found with
    | nil =>
      obtain rfl := Except.ok.inj h
      rfl
    | cons first rest ih =>
      rw [List.mapM_cons] at h
      cases first with
      | error e => exact nomatch h
      | ok x =>
        cases hrest : rest.mapM id with
        | error e =>
          rw [hrest] at h
          exact nomatch h
        | ok others =>
          rw [hrest] at h
          obtain rfl := Except.ok.inj h
          rw [ih hrest, List.map_cons]
  · rintro rfl
    induction found with
    | nil => rfl
    | cons x found ih =>
      rw [List.map_cons, List.mapM_cons, ih]
      rfl

/-- What a row of results fails with is in it. -/
theorem error_mem_of_mapM_id {e : ε} (h : met.mapM id = .error e) : .error e ∈ met := by
  induction met with
  | nil => exact nomatch h
  | cons first rest ih =>
    rw [List.mapM_cons] at h
    cases first with
    | error other =>
      obtain rfl := Except.error.inj h
      exact List.mem_cons_self
    | ok x =>
      cases hrest : rest.mapM id with
      | ok others =>
        rw [hrest] at h
        exact nomatch h
      | error other =>
        rw [hrest] at h
        obtain rfl := Except.error.inj h
        exact List.mem_cons_of_mem _ (ih hrest)

end Listings

end Disk

end FenceLint
