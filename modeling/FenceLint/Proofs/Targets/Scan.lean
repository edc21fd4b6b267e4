import FenceLint.Proofs.Disk.Walk
import FenceLint.Targets.Scan
import Mathlib.Data.List.Sort

/-!
What a scan finds. Below a folder these are the regular files whose names end with one of the
Markdown extensions (`mem_markdownIn`), each of them once and in the order of the names on the way
to it (`pairwise_markdownIn`), which holds of a tree when it holds of the folders in it. A scan that
stays in the folder itself leaves out what is deeper (`markdownIn_shallow`). All of this is what is
met if every directory on the way can be listed (`met_eq_ok`), and only one that cannot be listed
keeps a scan from it (`list_of_error_mem_met`).
-/

set_option autoImplicit false

namespace FenceLint.Targets

section Name

/-- A name with something in front of its last dot and a Markdown extension, in any case, behind
it. -/
def HasMarkdownExtension (name : String) : Prop :=
  ∃ stem ext, name = stem ++ "." ++ ext ∧ stem ≠ "" ∧ ext.toLower ∈ markdownExtensions

/-- In whatever case it is written, a Markdown extension is not empty and holds no dot. -/
theorem proper_of_toLower {ext : String} (h : ext.toLower ∈ markdownExtensions) :
    ext ≠ "" ∧ '.' ∉ ext.toList := by
  have hproper : ∀ lower ∈ markdownExtensions, lower ≠ "" ∧ '.' ∉ lower.toList := by decide
  obtain ⟨hne, hdot⟩ := hproper ext.toLower h
  constructor
  · rintro rfl
    exact hne (by decide +kernel)
  · intro hmem
    have hmap : ext.toLower = ext.map Char.toLower := rfl
    rw [hmap, String.toList_map] at hdot
    exact hdot (List.mem_map_of_mem hmem)

theorem isMarkdown_iff {name : String} : isMarkdown name = true ↔ HasMarkdownExtension name := by
  have hsome : isMarkdown name = true ↔
      ∃ ext, Path.extension? name = some ext ∧ ext.toLower ∈ markdownExtensions := by
    unfold isMarkdown
    cases Path.extension? name <;> simp
  rw [hsome]
  constructor
  · rintro ⟨ext, hext, hlower⟩
    obtain ⟨stem, hname, hstem, -, -⟩ := Path.extension?_eq_some_iff.mp hext
    exact ⟨stem, ext, hname, hstem, hlower⟩
  · rintro ⟨stem, ext, rfl, hstem, hlower⟩
    obtain ⟨hext, hdot⟩ := proper_of_toLower hlower
    refine ⟨ext, Path.extension?_eq_some_iff.mpr ⟨stem, rfl, hstem, hdot, fun hdots ↦ ?_⟩, hlower⟩
    -- both sides of the dot would have to fit into one character
    have hlength := congrArg (fun name ↦ name.toList.length) hdots
    have hstem : 0 < stem.toList.length :=
      List.length_pos_of_ne_nil (mt String.toList_eq_nil_iff.mp hstem)
    have hext : 0 < ext.toList.length :=
      List.length_pos_of_ne_nil (mt String.toList_eq_nil_iff.mp hext)
    simp only [String.toList_append, List.length_append] at hlength
    have hone : ".".toList.length = 1 := rfl
    have htwo : "..".toList.length = 2 := rfl
    omega

end Name

section Tree

variable {deep : Bool} {tree node : Node} {name : String} {names below : List String}

mutual

/-- The Markdown files that an entry contributes, as names from its directory. -/
def selectEntry (deep : Bool) (name : String) : Node → List (List String)
  | .file _ _ => if isMarkdown name then [[name]] else []
  | .link _ => []
  | .folder entries =>
    if deep then (inOrder (selectEntries deep entries)).map (name :: ·) else []

/-- What each of some entries contributes. -/
def selectEntries (deep : Bool) : List (String × Node) → List (String × List (List String))
  | [] => []
  | (name, node) :: rest => (name, selectEntry deep name node) :: selectEntries deep rest

end

/-- The Markdown files in a folder, as names from it; with `deep` also those in its folders. -/
def markdownIn (deep : Bool) (folder : Node) : List (List String) :=
  inOrder (selectEntries deep folder.entries)

/-- Names that lead through folders to a regular file with a Markdown extension. -/
def MarkdownFile (tree : Node) (names : List String) : Prop :=
  (∃ text? executable, tree.descend names = some (.file text? executable)) ∧
    ∃ name, names.getLast? = some name ∧ HasMarkdownExtension name

theorem selectEntries_eq_map (entries : List (String × Node)) :
    selectEntries deep entries =
      entries.map fun entry ↦ (entry.1, selectEntry deep entry.1 entry.2) := by
  induction entries with
  | nil => rfl
  | cons entry rest ih => rw [selectEntries, ih, List.map_cons]

/-- Entries in ascending order of their names. -/
def sorted (entries : List (String × Node)) : List (String × Node) :=
  entries.mergeSort fun a b ↦ a.1 ≤ b.1

/-- The files in a folder are those of its entries, one entry after the other. -/
theorem markdownIn_eq_flatMap :
    markdownIn deep tree =
      (sorted tree.entries).flatMap fun entry ↦ selectEntry deep entry.1 entry.2 := by
  let select (entry : String × Node) := (entry.1, selectEntry deep entry.1 entry.2)
  have hsort : (tree.entries.map select).mergeSort (fun a b ↦ decide (a.1 ≤ b.1)) =
      (sorted tree.entries).map select := by
    rw [sorted, List.map_mergeSort]
    intros
    rfl
  rw [markdownIn, selectEntries_eq_map, inOrder, hsort, List.flatMap_map]

/-- Of distinct names each is less than all that come after it. -/
theorem pairwise_sorted {entries : List (String × Node)} (h : (entries.map Prod.fst).Nodup) :
    (sorted entries).Pairwise fun a b ↦ a.1 < b.1 := by
  have hle : (sorted entries).Pairwise fun a b ↦ decide (a.1 ≤ b.1) = true :=
    List.pairwise_mergeSort
      (fun a b c hab hbc ↦ decide_eq_true ((of_decide_eq_true hab).trans (of_decide_eq_true hbc)))
      (fun a b ↦ by simpa using le_total a.1 b.1) entries
  have hne : (sorted entries).Pairwise fun a b ↦ a.1 ≠ b.1 := by
    have hperm : ((sorted entries).map Prod.fst).Perm (entries.map Prod.fst) :=
      (List.mergeSort_perm entries _).map Prod.fst
    exact List.pairwise_map.mp (hperm.nodup_iff.mpr h)
  exact (hle.and hne).imp fun ⟨hab, hne⟩ ↦ lt_of_le_of_ne (of_decide_eq_true hab) hne

/-- What an entry contributes starts with its name. -/
theorem exists_of_mem_selectEntry (h : names ∈ selectEntry deep name node) :
    ∃ below, names = name :: below := by
  cases node with
  | file text? executable =>
    rw [selectEntry] at h
    split_ifs at h
    · exact ⟨[], List.mem_singleton.mp h⟩
    · exact absurd h List.not_mem_nil
  | link target => exact absurd h List.not_mem_nil
  | folder entries =>
    rw [selectEntry] at h
    split_ifs at h
    · obtain ⟨below, -, rfl⟩ := List.mem_map.mp h
      exact ⟨below, rfl⟩
    · exact absurd h List.not_mem_nil

/-- Names that are found start with that of an entry and go on as this entry has it. -/
theorem cons_mem_markdownIn (h : tree.WellNamed) :
    name :: below ∈ markdownIn deep tree ↔
      ∃ node, tree.child? name = some node ∧ name :: below ∈ selectEntry deep name node := by
  rw [markdownIn_eq_flatMap, List.mem_flatMap]
  constructor
  · rintro ⟨⟨other, node⟩, hentry, hmem⟩
    obtain ⟨rest, hrest⟩ := exists_of_mem_selectEntry hmem
    obtain ⟨rfl, rfl⟩ := List.cons.inj hrest
    exact ⟨node, h.child?_eq_some_iff.mpr (List.mem_mergeSort.mp hentry), hmem⟩
  · rintro ⟨node, hchild, hmem⟩
    exact ⟨(name, node), List.mem_mergeSort.mpr (h.child?_eq_some_iff.mp hchild), hmem⟩

theorem nil_not_mem_markdownIn : [] ∉ markdownIn deep tree := by
  rw [markdownIn_eq_flatMap, List.mem_flatMap]
  rintro ⟨entry, -, hmem⟩
  obtain ⟨below, hbelow⟩ := exists_of_mem_selectEntry hmem
  exact List.cons_ne_nil _ _ hbelow.symm

/-- A name alone is found where it is that of a file. -/
theorem singleton_mem_selectEntry :
    [name] ∈ selectEntry deep name node ↔
      (∃ text? executable, node = .file text? executable) ∧ HasMarkdownExtension name := by
  cases node with
  | file text? executable => simp [selectEntry, ← isMarkdown_iff]
  | link target => simp [selectEntry]
  | folder entries =>
    have hnil : [] ∉ markdownIn deep (.folder entries) := nil_not_mem_markdownIn
    cases deep <;> simp_all [selectEntry, markdownIn, Node.entries]

/-- More names are found where the entry is a folder in which they are found. -/
theorem cons_cons_mem_selectEntry {next : String} :
    name :: next :: below ∈ selectEntry true name node ↔ next :: below ∈ markdownIn true node := by
  cases node with
  | file text? executable => simp [selectEntry, markdownIn, Node.entries, selectEntries, inOrder]
  | link target => simp [selectEntry, markdownIn, Node.entries, selectEntries, inOrder]
  | folder entries => simp [selectEntry, markdownIn, Node.entries]

/-- What is found in a tree are its Markdown files. -/
theorem mem_markdownIn (h : tree.WellNamed) :
    names ∈ markdownIn true tree ↔ MarkdownFile tree names := by
  induction names generalizing tree with
  | nil => simp [MarkdownFile, nil_not_mem_markdownIn]
  | cons name below ih =>
    rw [cons_mem_markdownIn h, MarkdownFile, Node.descend]
    cases hchild : tree.child? name with
    | none => simp
    | some node =>
      have hstep : name :: below ∈ selectEntry true name node ↔
          (∃ text? executable, node.descend below = some (.file text? executable)) ∧
            ∃ last, (name :: below).getLast? = some last ∧ HasMarkdownExtension last := by
        cases below with
        | nil =>
          rw [singleton_mem_selectEntry]
          simp [Node.descend]
        | cons next rest =>
          rw [cons_cons_mem_selectEntry, ih (h.of_child? hchild), MarkdownFile,
            List.getLast?_cons_cons]
      simpa using hstep

/-- The names on the way to a file that comes first are less by their bytes where they first
differ. -/
theorem pairwise_markdownIn_of_entries (h : tree.WellNamed)
    (hentries : ∀ entry ∈ tree.entries,
      (selectEntry deep entry.1 entry.2).Pairwise (List.Lex Text.BytesBefore)) :
    (markdownIn deep tree).Pairwise (List.Lex Text.BytesBefore) := by
  rw [markdownIn_eq_flatMap, List.pairwise_flatMap]
  refine ⟨fun entry hentry ↦ hentries entry (List.mem_mergeSort.mp hentry), ?_⟩
  refine (pairwise_sorted h.nodup).imp fun {a b} hlt names hnames others hothers ↦ ?_
  obtain ⟨below, rfl⟩ := exists_of_mem_selectEntry hnames
  obtain ⟨under, rfl⟩ := exists_of_mem_selectEntry hothers
  exact .rel (Text.bytesBefore_of_lt hlt)

theorem pairwise_selectEntry (h : node.WellNamed) :
    (selectEntry deep name node).Pairwise (List.Lex Text.BytesBefore) := by
  induction node using Node.byEntries generalizing name with
  | file text? executable =>
    rw [selectEntry]
    split_ifs
    · exact List.pairwise_singleton _ _
    · exact List.Pairwise.nil
  | link target => exact List.Pairwise.nil
  | folder entries ih =>
    rw [selectEntry]
    split_ifs
    · rw [List.pairwise_map]
      have hbelow := pairwise_markdownIn_of_entries h fun entry hentry ↦
        ih entry hentry (h.of_mem_entries hentry)
      exact hbelow.imp fun hlex ↦ .cons hlex
    · exact List.Pairwise.nil

/-- The files of a tree come in the order of the bytes of the names on the way to them. -/
theorem pairwise_markdownIn (h : tree.WellNamed) :
    (markdownIn deep tree).Pairwise (List.Lex Text.BytesBefore) :=
  pairwise_markdownIn_of_entries h fun _ hentry ↦ pairwise_selectEntry (h.of_mem_entries hentry)

/-- Without going deeper, what is found are the files of the folder itself. -/
theorem markdownIn_shallow :
    markdownIn false tree = (markdownIn true tree).filter fun names ↦ names.length = 1 := by
  rw [markdownIn_eq_flatMap, markdownIn_eq_flatMap, List.filter_flatMap]
  congr 1
  funext ⟨name, node⟩
  cases node with
  | file text? executable =>
    rw [selectEntry, selectEntry]
    split_ifs <;> rfl
  | link target => rfl
  | folder entries =>
    refine (List.filter_eq_nil_iff.mpr fun names hnames ↦ ?_).symm
    obtain ⟨below, rfl⟩ := exists_of_mem_selectEntry hnames
    cases below with
    | nil => exact absurd (singleton_mem_selectEntry.mp hnames).1 (by simp)
    | cons next rest => simp

end Tree

section Met

variable {disk : Disk} {deep : Bool} {dir name : String} {tree node : Node} {unlisted : Disk.Unlisted}
  {entries : List (String × Node)}

/-- Every directory that a scan goes through can be listed: the one that it is asked for and, with
`deep`, those below it. -/
def Readable (disk : Disk) (deep : Bool) (dir : String) (tree : Node) : Prop :=
  ∀ names entries, deep = true ∨ names = [] → tree.descend names = some (.folder entries) →
    ∃ listed, disk.list (pathBelow dir names) = .ok listed

/-- A directory in the tree that cannot be listed. -/
def Unreadable (disk : Disk) (dir : String) (tree : Node) (unlisted : Disk.Unlisted) : Prop :=
  (∃ names entries, tree.descend names = some (.folder entries) ∧
    unlisted.dir = pathBelow dir names) ∧
    disk.list unlisted.dir = .error unlisted.fault

theorem Unreadable.of_child? (h : Unreadable disk (Path.join dir name) node unlisted)
    (hchild : tree.child? name = some node) : Unreadable disk dir tree unlisted := by
  obtain ⟨⟨names, entries, hnames, hdir⟩, hlist⟩ := h
  refine ⟨⟨name :: names, entries, ?_, hdir⟩, hlist⟩
  rw [Node.descend, hchild]
  exact hnames

theorem Readable.of_mem (h : Readable disk true dir tree) (htree : tree.WellNamed)
    {entry : String × Node} (hentry : entry ∈ tree.entries) :
    Readable disk true (Path.join dir entry.1) entry.2 := by
  intro names entries _ hnames
  refine h (entry.1 :: names) entries (.inl rfl) ?_
  rw [Node.descend, htree.child?_eq_some_iff.mpr hentry]
  exact hnames

theorem meetEntries_eq_map (entries : List (String × Node)) :
    meetEntries disk deep dir entries =
      entries.map fun entry ↦ (entry.1, meetEntry disk deep dir entry.1 entry.2) := by
  induction entries with
  | nil => rfl
  | cons entry rest ih => rw [meetEntries, ih, List.map_cons]

theorem inOrder_map {α β : Type} (f : α → β) (groups : List (String × List α)) :
    inOrder (groups.map fun group ↦ (group.1, group.2.map f)) = (inOrder groups).map f := by
  have hsort : (groups.map fun group ↦ (group.1, group.2.map f)).mergeSort
      (fun a b ↦ decide (a.1 ≤ b.1)) =
        (groups.mergeSort fun a b ↦ decide (a.1 ≤ b.1)).map fun group ↦
          (group.1, group.2.map f) := by
    rw [List.map_mergeSort]
    intros
    rfl
  rw [inOrder, inOrder, hsort, List.flatMap_map, List.map_flatMap]

theorem mem_inOrder_meetEntries {met : Met} :
    met ∈ inOrder (meetEntries disk deep dir entries) ↔
      ∃ entry ∈ entries, met ∈ meetEntry disk deep dir entry.1 entry.2 := by
  simp [inOrder, meetEntries_eq_map, List.mem_flatMap, List.mem_mergeSort]

/-- Where entries are met as they are, so is the folder with them. -/
theorem inOrder_meetEntries (h : ∀ entry ∈ entries,
    meetEntry disk deep dir entry.1 entry.2 = (selectEntry deep entry.1 entry.2).map .ok) :
    inOrder (meetEntries disk deep dir entries) =
      (markdownIn deep (.folder entries)).map .ok := by
  rw [markdownIn, Node.entries, meetEntries_eq_map, selectEntries_eq_map, ← inOrder_map,
    List.map_map]
  congr 1
  exact List.map_congr_left fun entry hentry ↦ Prod.ext rfl (h entry hentry)

/-- Of an entry the files are met, if every directory on the way to them can be listed. -/
theorem meetEntry_eq (hnode : node.WellNamed)
    (h : deep = true → Readable disk true (Path.join dir name) node) :
    meetEntry disk deep dir name node = (selectEntry deep name node).map .ok := by
  induction node using Node.byEntries generalizing dir name with
  | file text? executable =>
    rw [meetEntry, selectEntry]
    split_ifs <;> rfl
  | link target => rfl
  | folder entries ih =>
    cases deep with
    | false => rfl
    | true =>
      have hreadable := h rfl
      obtain ⟨listed, hlist⟩ := hreadable [] entries (.inl rfl) rfl
      have hinside : inOrder (meetEntries disk true (Path.join dir name) entries) =
          (markdownIn true (.folder entries)).map .ok :=
        inOrder_meetEntries fun entry hentry ↦
          ih entry hentry (hnode.of_mem_entries hentry) fun _ ↦ hreadable.of_mem hnode hentry
      rw [pathBelow, List.foldl_nil] at hlist
      rw [meetEntry, if_pos rfl, ifListed, hlist, hinside, selectEntry, if_pos rfl, List.map_map,
        List.map_map]
      rfl

/-- A scan meets the files of a directory, if every directory that it goes through can be
listed. -/
theorem met_eq_ok (htree : (Node.folder entries).WellNamed)
    (h : Readable disk deep dir (.folder entries)) :
    met disk deep dir entries = (markdownIn deep (.folder entries)).map .ok := by
  obtain ⟨listed, hlist⟩ := h [] entries (.inr rfl) rfl
  rw [pathBelow, List.foldl_nil] at hlist
  rw [met, ifListed, hlist]
  refine inOrder_meetEntries fun entry hentry ↦
    meetEntry_eq (htree.of_mem_entries hentry) fun hdeep ↦ ?_
  subst hdeep
  exact h.of_mem htree hentry

theorem unreadable_of_mem_ifListed {inside : List Met}
    (h : .error unlisted ∈ ifListed disk dir inside)
    (hinside : .error unlisted ∈ inside → Unreadable disk dir (.folder entries) unlisted) :
    Unreadable disk dir (.folder entries) unlisted := by
  unfold ifListed at h
  split at h
  · exact hinside h
  · rename_i fault hlist
    obtain rfl := Except.error.inj (List.mem_singleton.mp h)
    exact ⟨⟨[], entries, rfl, rfl⟩, hlist⟩

/-- What a scan tells of a directory is that it is there and cannot be listed. -/
theorem unreadable_of_mem_meetEntry (hnode : node.WellNamed)
    (h : .error unlisted ∈ meetEntry disk deep dir name node) :
    Unreadable disk (Path.join dir name) node unlisted := by
  induction node using Node.byEntries generalizing dir name with
  | file text? executable =>
    rw [meetEntry] at h
    split_ifs at h
    · exact nomatch List.mem_singleton.mp h
    · exact absurd h List.not_mem_nil
  | link target => exact absurd h List.not_mem_nil
  | folder entries ih =>
    rw [meetEntry] at h
    split_ifs at h
    · obtain ⟨met, hmet, hunlisted⟩ := List.mem_map.mp h
      cases met with
      | ok names => exact nomatch hunlisted
      | error other =>
        obtain rfl := Except.error.inj hunlisted
        refine unreadable_of_mem_ifListed hmet fun hinside ↦ ?_
        obtain ⟨entry, hentry, hbelow⟩ := mem_inOrder_meetEntries.mp hinside
        exact (ih entry hentry (hnode.of_mem_entries hentry) hbelow).of_child?
          (hnode.child?_eq_some_iff.mpr hentry)
    · exact absurd h List.not_mem_nil

theorem unreadable_of_mem_met (htree : (Node.folder entries).WellNamed)
    (h : .error unlisted ∈ met disk deep dir entries) :
    Unreadable disk dir (.folder entries) unlisted := by
  refine unreadable_of_mem_ifListed h fun hinside ↦ ?_
  obtain ⟨entry, hentry, hbelow⟩ := mem_inOrder_meetEntries.mp hinside
  exact (unreadable_of_mem_meetEntry (htree.of_mem_entries hentry) hbelow).of_child?
    (htree.child?_eq_some_iff.mpr hentry)

theorem list_of_ifListed {inside : List Met}
    (h : ∀ unlisted, .error unlisted ∉ ifListed disk dir inside) :
    ∃ listed, disk.list dir = .ok listed ∧ ifListed disk dir inside = inside := by
  unfold ifListed at h ⊢
  split at h
  · rename_i listed hlist
    rw [hlist]
    exact ⟨listed, rfl, rfl⟩
  · exact absurd List.mem_cons_self (h _)

/-- A directory below an entry of which nothing is told can be listed. -/
theorem readable_of_meetEntry
    (h : ∀ unlisted, .error unlisted ∉ meetEntry disk true dir name node) :
    Readable disk true (Path.join dir name) node := by
  induction node using Node.byEntries generalizing dir name with
  | file text? executable =>
    intro names entries _ hfolder
    obtain ⟨own, hown⟩ := Node.exists_entries_of_descend hfolder
    exact nomatch hown
  | link target =>
    intro names entries _ hfolder
    obtain ⟨own, hown⟩ := Node.exists_entries_of_descend hfolder
    exact nomatch hown
  | folder entries ih =>
    have hinside : ∀ unlisted, .error unlisted ∉ ifListed disk (Path.join dir name)
        (inOrder (meetEntries disk true (Path.join dir name) entries)) := by
      intro unlisted hmem
      refine h unlisted ?_
      rw [meetEntry, if_pos rfl]
      exact List.mem_map_of_mem hmem
    obtain ⟨listed, hlist, hsame⟩ := list_of_ifListed hinside
    rw [hsame] at hinside
    rintro (_ | ⟨next, rest⟩) others - hfolder
    · exact ⟨listed, hlist⟩
    · obtain ⟨child, hchild, hrest⟩ := Option.bind_eq_some_iff.mp hfolder
      have hmem := Node.mem_entries_of_child? hchild
      refine ih (next, child) hmem (fun unlisted hbelow ↦ ?_) rest others (.inl rfl) hrest
      exact hinside unlisted (mem_inOrder_meetEntries.mpr ⟨(next, child), hmem, hbelow⟩)

theorem readable_of_met (h : ∀ unlisted, .error unlisted ∉ met disk deep dir entries) :
    Readable disk deep dir (.folder entries) := by
  obtain ⟨listed, hlist, hsame⟩ := list_of_ifListed h
  rw [met, hsame] at h
  rintro (_ | ⟨next, rest⟩) others hdeep hfolder
  · exact ⟨listed, hlist⟩
  · obtain rfl := hdeep.resolve_right (List.cons_ne_nil _ _)
    obtain ⟨child, hchild, hrest⟩ := Option.bind_eq_some_iff.mp hfolder
    have hmem := Node.mem_entries_of_child? hchild
    refine readable_of_meetEntry (fun unlisted hbelow ↦ ?_) rest others (.inl rfl) hrest
    exact h unlisted (mem_inOrder_meetEntries.mpr ⟨(next, child), hmem, hbelow⟩)

end Met

section Scan

variable {disk : Disk} {dir : String} {tree : Node} {names : List String}

/-- Names that lead to something in a tree are names that directories hold. -/
theorem isName_of_descend {node : Node} (h : tree.WellNamed)
    (hnode : tree.descend names = some node) : ∀ name ∈ names, Path.IsName name := by
  induction names generalizing tree with
  | nil => exact fun name hname ↦ absurd hname List.not_mem_nil
  | cons name rest ih =>
    obtain ⟨child, hchild, hrest⟩ := Option.bind_eq_some_iff.mp hnode
    refine List.forall_mem_cons.mpr ⟨?_, ih (h.of_child? hchild) hrest⟩
    exact h.isName (h.child?_eq_some_iff.mp hchild)

/-- The names on the way to a file are the components of its path behind those of the directory. -/
theorem components_pathBelow (hdir : dir ≠ "") (h : ∀ name ∈ names, Path.IsName name) :
    Path.components (pathBelow dir names) = Path.components dir ++ names := by
  induction names generalizing dir with
  | nil => exact (List.append_nil _).symm
  | cons name rest ih =>
    obtain ⟨hname, hrest⟩ := List.forall_mem_cons.mp h
    have hjoin := hname.components_join hdir
    rw [pathBelow, List.foldl_cons, ← pathBelow, ih (Path.join_ne_empty hdir name) hrest, hjoin,
      List.append_assoc, List.singleton_append]

/-- The Markdown files of a directory, each with the names on the way to it. -/
structure Listing (dir : String) (tree : Node) (files : List (List String)) : Prop where
  /-- Every one of them is there, and nothing else. -/
  mem_iff : ∀ names, names ∈ files ↔ MarkdownFile tree names
  /-- Their paths are strictly increasing. -/
  increasing : (files.map (pathBelow dir)).Pairwise Path.Before
  /-- No path is there twice. -/
  nodup : (files.map (pathBelow dir)).Nodup

/-- The files of a listing that a scan takes: without `deep` those in the directory itself. -/
def taken (deep : Bool) (files : List (List String)) : List (List String) :=
  if deep then files else files.filter fun names ↦ names.length = 1

theorem markdownIn_eq_taken {deep : Bool} :
    markdownIn deep tree = taken deep (markdownIn true tree) := by
  cases deep with
  | true => rfl
  | false => exact markdownIn_shallow

theorem listing_markdownIn (hdir : dir ≠ "") (h : tree.WellNamed) :
    Listing dir tree (markdownIn true tree) := by
  have hnames : ∀ names ∈ markdownIn true tree, ∀ name ∈ names, Path.IsName name := by
    intro names hmem
    obtain ⟨⟨text?, executable, hfile⟩, -⟩ := (mem_markdownIn h).mp hmem
    exact isName_of_descend h hfile
  have hincreasing : ((markdownIn true tree).map (pathBelow dir)).Pairwise Path.Before := by
    rw [List.pairwise_map]
    refine (pairwise_markdownIn h).imp_of_mem fun {a b} ha hb hlex ↦ ?_
    rw [Path.Before, components_pathBelow hdir (hnames a ha),
      components_pathBelow hdir (hnames b hb)]
    exact List.Lex.append_left _ hlex _
  refine ⟨fun names ↦ mem_markdownIn h, hincreasing, hincreasing.imp fun {a b} hbefore ↦ ?_⟩
  rintro rfl
  exact Path.not_before_self a hbefore

/-- A scan fails for want of a directory only where there is none; of a directory it gives the files
of its listing that the mode takes, in order, and fails for want of a match only if these are none.
It takes every directory that it goes through to be listed, and otherwise fails with one of them
that cannot be. The names in the directories of the disk are taken to be names, and distinct. -/
theorem scan_listing {disk : Disk} (hdisk : disk.root.WellNamed) (dir : String) :
    (∀ deep, scan disk dir deep = .error (.missing dir) ↔
      ¬∃ entries, disk.find dir = .ok (.folder entries)) ∧
    ∀ entries, disk.find dir = .ok (.folder entries) →
      ∃ files, Listing dir (.folder entries) files ∧ ∀ deep,
        (Readable disk deep dir (.folder entries) →
          scan disk dir deep =
            if taken deep files = [] then .error (.noMatches (dir ++ "/*.md"))
            else .ok ((taken deep files).map (pathBelow dir))) ∧
        (¬Readable disk deep dir (.folder entries) →
          ∃ unlisted, Unreadable disk dir (.folder entries) unlisted ∧
            scan disk dir deep = .error (.unscannable dir unlisted.dir unlisted.fault)) := by
  refine ⟨fun deep ↦ ⟨?_, fun hnone ↦ ?_⟩, fun entries hfind ↦ ?_⟩
  · rintro hmissing ⟨entries, hfind⟩
    unfold scan at hmissing
    rw [hfind] at hmissing
    dsimp only at hmissing
    split at hmissing
    · exact Error.noConfusion (Except.error.inj hmissing)
    · exact Error.noConfusion (Except.error.inj hmissing)
    · exact nomatch hmissing
  · unfold scan
    split
    · exact absurd ⟨_, ‹_›⟩ hnone
    · rfl
  · have htree : (Node.folder entries).WellNamed := Disk.wellNamed_of_find hdisk hfind
    refine ⟨markdownIn true (.folder entries),
      listing_markdownIn (Disk.ne_empty_of_find hfind) htree, fun deep ↦ ⟨fun h ↦ ?_, fun h ↦ ?_⟩⟩
    · have hmet : (met disk deep dir entries).mapM id = .ok (markdownIn deep (.folder entries)) :=
        Disk.mapM_id_eq_ok_iff.mpr (met_eq_ok htree h)
      rw [← markdownIn_eq_taken]
      simp only [scan, hfind, hmet]
      cases markdownIn deep (.folder entries) <;> rfl
    · cases hmet : (met disk deep dir entries).mapM id with
      | ok files =>
        refine absurd (readable_of_met fun unlisted hmem ↦ ?_) h
        rw [Disk.mapM_id_eq_ok_iff.mp hmet] at hmem
        obtain ⟨names, -, hnames⟩ := List.mem_map.mp hmem
        exact nomatch hnames
      | error unlisted =>
        refine ⟨unlisted, unreadable_of_mem_met htree (Disk.error_mem_of_mapM_id hmet), ?_⟩
        simp only [scan, hfind, hmet]

/-- A directory with a Markdown file and one that is only called like their extension. -/
def inner : List (String × Node) := [("x.md", .file none false), (".md", .file none false)]

/-- A directory with Markdown files in it and below it, a link to one, and other files. -/
def notes : List (String × Node) :=
  [("b.MarkDown", .file none false), ("old.md", .link "a.md"), ("a.md", .file none false),
    ("plan.txt", .file none false), ("a", .folder inner)]

/-- A disk with that directory. -/
def notesDisk : Disk := .unguarded (.folder [("docs", .folder notes)]) []

/-- One by one, for names that are given. -/
theorem isName_of_all {entries : List (String × Node)}
    (h : (entries.all fun entry ↦ !entry.1.toList.contains '/' && entry.1 != "" &&
      entry.1 != "." && entry.1 != "..") = true) : ∀ entry ∈ entries, Path.IsName entry.1 := by
  intro entry hentry
  have hname := List.all_eq_true.mp h entry hentry
  simp only [Bool.and_eq_true, Bool.not_eq_true', bne_iff_ne, List.contains_eq_mem,
    decide_eq_false_iff_not] at hname
  exact ⟨hname.1.1.1, hname.1.1.2, hname.1.2, hname.2⟩

theorem notesDisk_wellNamed : notesDisk.root.WellNamed := by
  have hdeep : (Node.folder inner).WellNamed :=
    Node.wellNamed_folder (by decide) (isName_of_all (by decide +kernel))
      (by simp [inner, Node.wellNamed_file])
  have hnotes : (Node.folder notes).WellNamed :=
    Node.wellNamed_folder (by decide) (isName_of_all (by decide +kernel))
      (by simp [notes, hdeep, Node.wellNamed_file, Node.wellNamed_link])
  exact Node.wellNamed_folder (by decide) (isName_of_all (by decide +kernel))
    (by simp [hnotes])

theorem notesDisk_find : notesDisk.find "/docs" = .ok (.folder notes) := by
  have hsize : "/docs".utf8ByteSize = 5 := rfl
  have hname : "docs".utf8ByteSize = 4 := rfl
  simp [Disk.find, Disk.locate, Disk.partsOf, Disk.nodeAt, Disk.unguarded, notesDisk, Path.parts,
    Disk.walk, Disk.origin, Path.isAbsolute, Node.descend, Node.child?, Node.entries,
    Disk.nameLimit, Disk.pathLimit, Text.pieces, bind, Except.bind, pure, Except.pure, hsize, hname]

theorem notesDisk_find_inner :
    notesDisk.find (pathBelow "/docs" ["a"]) = .ok (.folder inner) := by
  have hpath : pathBelow "/docs" ["a"] = "/docs/a" := by decide
  have hsize : "/docs/a".utf8ByteSize = 7 := rfl
  have hname : "docs".utf8ByteSize = 4 := rfl
  have hinner : "a".utf8ByteSize = 1 := rfl
  rw [hpath]
  simp [Disk.find, Disk.locate, Disk.partsOf, Disk.nodeAt, Disk.unguarded, notesDisk, Path.parts,
    Disk.walk, Disk.origin, Path.isAbsolute, Node.descend, Node.child?, Node.entries, notes,
    Disk.nameLimit, Disk.pathLimit, Text.pieces, List.lookup_cons, bind, Except.bind, pure,
    Except.pure, hsize, hname, hinner]

theorem notesDisk_readable : Readable notesDisk true "/docs" (.folder notes) := by
  rintro (_ | ⟨name, below⟩) entries - hfolder
  · exact ⟨notes, Disk.list_unguarded notesDisk_find⟩
  · obtain ⟨child, hchild, hbelow⟩ := Option.bind_eq_some_iff.mp hfolder
    obtain ⟨own, rfl⟩ := Node.exists_entries_of_descend hbelow
    -- one of the entries is a folder, and there is none in that one
    obtain ⟨rfl, rfl⟩ : name = "a" ∧ own = inner := by
      simpa [notes, Node.entries] using Node.mem_entries_of_child? hchild
    cases below with
    | nil => exact ⟨inner, Disk.list_unguarded notesDisk_find_inner⟩
    | cons next rest =>
      obtain ⟨grandchild, hgrandchild, hrest⟩ := Option.bind_eq_some_iff.mp hbelow
      obtain ⟨others, rfl⟩ := Node.exists_entries_of_descend hrest
      have hmem := Node.mem_entries_of_child? hgrandchild
      simp [inner, Node.entries] at hmem

theorem scan_listing_notes :
    notesDisk.root.WellNamed ∧ notesDisk.find "/docs" = .ok (.folder notes) ∧
      Readable notesDisk true "/docs" (.folder notes) ∧
        ∃ files, Listing "/docs" (.folder notes) files ∧
          ["a", "x.md"] ∈ files ∧ ["old.md"] ∉ files ∧
          scan notesDisk "/docs" true = .ok (files.map (pathBelow "/docs")) := by
  obtain ⟨files, hlisting, hscan⟩ :=
    (scan_listing notesDisk_wellNamed "/docs").2 notes notesDisk_find
  have hmem : ["a", "x.md"] ∈ files := by
    refine (hlisting.mem_iff _).mpr ⟨⟨none, false, rfl⟩, "x.md", rfl, "x", "md", rfl, ?_, ?_⟩
    · decide
    · decide +kernel
  have hlink : ["old.md"] ∉ files := by
    intro hfile
    obtain ⟨⟨text?, executable, hnode⟩, -⟩ := (hlisting.mem_iff _).mp hfile
    exact nomatch hnode
  refine ⟨notesDisk_wellNamed, notesDisk_find, notesDisk_readable, files, hlisting, hmem, hlink, ?_⟩
  rw [(hscan true).1 notesDisk_readable]
  exact if_neg (List.ne_nil_of_mem hmem)

end Scan

end FenceLint.Targets
