import FenceLint.Glob.Expand
import FenceLint.Proofs.Disk.Walk

/-!
A search that a path leads. As long as each part of a path has a component that takes the part for
what it is, the search comes through the same places as a walk along the path, and so to the same
end, unless it meets a directory on the way that it cannot list (`Follows.finds`). On the way it has
in front of it what is left of the walk (`Underway`), and each part that it takes leaves it so. What
a search fails with is a directory that cannot be listed (`list_of_paths_eq_error`).
-/

set_option autoImplicit false

namespace FenceLint.Glob

open Disk

section Below

variable {disk : Disk} {dir part : String} {s t : Stand}

theorem isHere_iff : isHere dir = true ↔ Path.components dir = [here] := by
  rw [isHere, decide_eq_true_iff]

/-- Once the search has left the directory where it starts, it is not back by going down. -/
theorem isHere_of_join (hdir : dir ≠ "") (hpart : '/' ∉ part.toList)
    (h : isHere (Path.join dir part) = true) : isHere dir = true := by
  rw [isHere_iff, Path.components_join hdir hpart, List.append_eq_singleton_iff] at h
  rcases h with ⟨hnil, -⟩ | ⟨hdir, -⟩
  · exact absurd hnil (Path.components_ne_nil dir)
  · exact isHere_iff.mpr hdir

/-- A walk to the directory where a relative search starts leads nowhere. -/
theorem eq_of_isHere (h : disk.Arrives dir s) (hhere : isHere dir = true) :
    s = ⟨linkLimit, disk.workingDir.reverse⟩ := by
  obtain ⟨first, rest, hparts⟩ := List.exists_cons_of_ne_nil (Path.parts_ne_nil dir)
  rw [isHere_iff, Path.components, hparts] at hhere
  obtain ⟨rfl, hrest⟩ := List.cons.inj hhere
  have hrelative : Path.isAbsolute dir = false := by
    by_contra habsolute
    obtain ⟨below, -, hbelow⟩ := Path.exists_of_isAbsolute (Bool.not_eq_false _ ▸ habsolute)
    exact absurd (List.cons.inj (hparts.symm.trans hbelow)).1 (by decide)
  have hcounts : ∀ part ∈ Path.parts dir, Path.counts part = false := by
    rw [hparts]
    refine List.forall_mem_cons.mpr ⟨rfl, fun part hpart ↦ ?_⟩
    exact Bool.not_eq_true _ ▸ List.filter_eq_nil_iff.mp hrest part hpart
  have hwalks := h.walks.eq_of_counts hcounts
  rw [Disk.origin, hrelative] at hwalks
  exact hwalks

/-- What a walk does with one more part it does with the path of this part. -/
theorem arrives_below (h : disk.Arrives dir s) (hwalk : Walks disk s [part] t)
    (hslash : '/' ∉ part.toList) (hnul : '\x00' ∉ part.toList)
    (hpart : isHere dir = true → part ≠ "") (hsize : (below dir part).utf8ByteSize ≤ pathLimit) :
    disk.Arrives (below dir part) t := by
  by_cases hhere : isHere dir = true
  · rw [below, if_pos hhere] at hsize ⊢
    refine ⟨hpart hhere, hnul, hsize, ?_⟩
    rw [Path.parts_of_not_mem hslash, Disk.origin, Path.isAbsolute_of_not_mem hslash]
    exact eq_of_isHere h hhere ▸ hwalk
  · rw [below, if_neg hhere] at hsize ⊢
    have hne := Path.join_ne_empty h.ne_empty part
    have hjoined := Path.joined_join h.ne_empty hslash
    generalize Path.join dir part = path at hne hjoined hsize ⊢
    cases hjoined with
    | added hend =>
      refine ⟨hne, ?_, hsize, ?_⟩
      · simp [h.nul_not_mem, hnul]
      · have horigin : disk.origin (dir ++ "/" ++ part) = disk.origin dir := by
          rw [Disk.origin, Disk.origin, String.append_assoc, Path.isAbsolute_append h.ne_empty]
        rw [horigin, Path.parts_append_slash, Path.parts_of_not_mem hslash]
        exact walks_append_iff.mpr ⟨s, h.walks, hwalk⟩
    | @kept front hdir =>
      subst hdir
      refine ⟨hne, ?_, hsize, ?_⟩
      · simpa [hnul] using h.nul_not_mem
      · have horigin : disk.origin (front ++ "/" ++ part) = disk.origin (front ++ "/") := by
          rw [Disk.origin, Disk.origin, Path.isAbsolute_append h.ne_empty]
        have hwalks := h.walks
        rw [Path.parts_append_slash_end] at hwalks
        obtain ⟨mid, hfront, hempty⟩ := walks_append_iff.mp hwalks
        have hmid : s = mid := hempty.eq_of_counts (by decide)
        rw [horigin, Path.parts_append_slash, Path.parts_of_not_mem hslash]
        exact walks_append_iff.mpr ⟨mid, hfront, hmid ▸ hwalk⟩

end Below

section Underway

variable {disk : Disk} {place rest : List String} {dir part : String}

/-- The bytes of a path in front of the next name. -/
def room (dir : String) : ℕ := if isHere dir then 0 else Path.reach dir

theorem room_le (dir : String) : room dir ≤ dir.utf8ByteSize + 1 := by
  unfold room
  split_ifs
  · exact Nat.zero_le _
  · exact Path.reach_le dir

theorem utf8ByteSize_below (hdir : dir ≠ "") (hpart : '/' ∉ part.toList) :
    (below dir part).utf8ByteSize = room dir + part.utf8ByteSize := by
  unfold below room
  split_ifs
  · exact (Nat.zero_add _).symm
  · exact Path.utf8ByteSize_join hdir hpart

/-- A search that has come to a directory, and the parts in front of it: they lead from there to the
place that the search is for, and there is room for them in the path. -/
structure Underway (disk : Disk) (place : List String) (dir : String) (parts : List String) :
    Prop where
  arrives : ∃ s left, disk.Arrives dir s ∧ Walks disk s parts ⟨left, place.reverse⟩
  slash_not_mem : ∀ part ∈ parts, '/' ∉ part.toList
  nul_not_mem : ∀ part ∈ parts, '\x00' ∉ part.toList
  size_le : room dir + Path.partsSize parts ≤ pathLimit + 1
  /-- Where a name stands alone, no empty one comes next. -/
  solid : isHere dir = true → ∀ dots behind, parts ≠ List.replicate dots here ++ "" :: behind

theorem Underway.next (h : Underway disk place dir (part :: rest)) :
    Underway disk place (below dir part) rest := by
  obtain ⟨s, left, harrives, hwalks⟩ := h.arrives
  obtain ⟨mid, hpart, hrest⟩ := walks_append_iff.mp (List.singleton_append ▸ hwalks)
  obtain ⟨hslash, hslashes⟩ := List.forall_mem_cons.mp h.slash_not_mem
  obtain ⟨hnul, hnuls⟩ := List.forall_mem_cons.mp h.nul_not_mem
  have hsize := h.size_le
  have hbelow := utf8ByteSize_below harrives.ne_empty hslash
  have hroom := room_le (below dir part)
  rw [Path.partsSize] at hsize
  refine ⟨⟨mid, left, arrives_below harrives hpart hslash hnul ?_ (by omega), hrest⟩, hslashes,
    hnuls, by omega, fun hhere dots behind hrest ↦ ?_⟩
  · rintro hhere rfl
    exact h.solid hhere 0 rest rfl
  · -- a name that leaves the search where it started is one more dot
    by_cases hstart : isHere dir = true
    · rw [below, if_pos hstart, isHere_iff, Path.components_of_not_mem hslash] at hhere
      obtain rfl := (List.cons.inj hhere).1
      exact h.solid hstart (dots + 1) behind (by rw [hrest]; rfl)
    · rw [below, if_neg hstart] at hhere
      exact hstart (isHere_of_join harrives.ne_empty hslash hhere)

/-- A relative search starts with all parts of a path in front of it. -/
theorem Underway.of_relative {path : String} {left : ℕ}
    (h : disk.Arrives path ⟨left, place.reverse⟩) (hrelative : Path.isAbsolute path = false)
    (hsolid : ∀ dots behind, Path.parts path ≠ List.replicate dots here ++ "" :: behind) :
    Underway disk place here (Path.parts path) := by
  have hwalks := h.walks
  rw [Disk.origin, hrelative, if_neg Bool.false_ne_true] at hwalks
  obtain ⟨part, rest, hparts⟩ := List.exists_cons_of_ne_nil (Path.parts_ne_nil path)
  obtain ⟨entries, hfolder⟩ := Walks.exists_folder (hparts ▸ hwalks)
  have hunbarred := Walks.unbarred (hparts ▸ hwalks) fun hempty ↦
    Path.parts_ne_empty_cons h.ne_empty hrelative rest (hempty ▸ hparts)
  have hstart : disk.Arrives here ⟨linkLimit, disk.workingDir.reverse⟩ :=
    ⟨by decide, by decide, by decide, .stay hfolder rfl (.inr hunbarred) (.done _)⟩
  refine ⟨⟨_, left, hstart, hwalks⟩, Path.slash_not_mem_of_mem_parts path,
    fun part hpart hnul ↦ h.nul_not_mem (Path.mem_of_mem_parts hpart hnul), ?_, fun _ ↦ hsolid⟩
  have hroom : room here = 0 := rfl
  rw [hroom, Path.partsSize_parts, Nat.zero_add]
  exact Nat.succ_le_succ h.size_le

/-- An absolute search starts behind the first part, which is the root. -/
theorem Underway.of_absolute {path : String} {left : ℕ}
    (h : disk.Arrives path ⟨left, place.reverse⟩) (habsolute : Path.isAbsolute path = true) :
    Underway disk place "/" (Path.parts path).tail := by
  obtain ⟨below, -, hparts⟩ := Path.exists_of_isAbsolute habsolute
  have hwalks := h.walks
  rw [Disk.origin, habsolute, if_pos rfl, hparts] at hwalks
  obtain ⟨entries, hfolder⟩ := hwalks.exists_folder
  obtain ⟨mid, hempty, hbelow⟩ := walks_append_iff.mp (List.singleton_append ▸ hwalks)
  obtain rfl := hempty.eq_of_counts (by decide)
  have hstart : disk.Arrives "/" ⟨linkLimit, []⟩ :=
    ⟨by decide, by decide, by decide,
      .stay hfolder rfl (.inl rfl) (.stay hfolder rfl (.inl rfl) (.done _))⟩
  have htail : ∀ part ∈ Path.parts below, part ∈ Path.parts path := by
    rw [hparts]
    exact fun part ↦ List.mem_cons_of_mem ""
  rw [hparts, List.tail_cons]
  refine ⟨⟨_, left, hstart, hbelow⟩,
    fun part hpart ↦ Path.slash_not_mem_of_mem_parts path part (htail part hpart),
    fun part hpart hnul ↦ h.nul_not_mem (Path.mem_of_mem_parts (htail part hpart) hnul), ?_,
    fun hhere ↦ absurd hhere (by decide)⟩
  have hroom : room "/" = 1 := rfl
  have hsize := Path.partsSize_parts path
  have hempty : "".utf8ByteSize = 0 := rfl
  have hlimit := h.size_le
  rw [hparts, Path.partsSize, hempty] at hsize
  omega

/-- In front of a part stands a folder. -/
theorem Underway.isFolder {parts : List String} (h : Underway disk place dir parts)
    (hne : parts ≠ []) : disk.isFolder dir = true := by
  obtain ⟨s, left, harrives, hwalks⟩ := h.arrives
  obtain ⟨part, rest, rfl⟩ := List.exists_cons_of_ne_nil hne
  obtain ⟨entries, hfolder⟩ := hwalks.exists_folder
  rw [Disk.isFolder, harrives.find_eq hfolder]

/-- A name that is next is one of those in the folder, and it is taken for that of a folder if a
part follows. -/
theorem Underway.exists_entry (h : Underway disk place dir (part :: rest))
    (hpart : Path.IsName part) :
    ∃ entries node, disk.find dir = .ok (.folder entries) ∧ (part, node) ∈ entries ∧
      (rest ≠ [] → showsFolder disk (below dir part) node = true) := by
  obtain ⟨s, left, harrives, hwalks⟩ := h.arrives
  obtain ⟨entries, node, hfolder, hlookup, hnext⟩ := hwalks.exists_entry hpart
  refine ⟨entries, node, harrives.find_eq hfolder, ?_, fun hrest ↦ ?_⟩
  · obtain ⟨front, back, rfl, -⟩ := List.lookup_eq_some_iff.mp hlookup
    exact List.mem_append_right front List.mem_cons_self
  · cases node with
    | folder inside => rfl
    | link target => exact h.next.isFolder hrest
    | file text? executable =>
      -- a file is not gone into
      obtain ⟨next, more, rfl⟩ := List.exists_cons_of_ne_nil hrest
      obtain ⟨target, htarget⟩ | hwalks := hnext
      · cases htarget
      · obtain ⟨inside, hinside⟩ := hwalks.exists_folder
        rw [List.reverse_cons, Node.descend_append, hfolder, Option.bind_some, Node.descend,
          Node.child?, Node.entries, hlookup] at hinside
        cases hinside

theorem Underway.exists? {parts : List String} (h : Underway disk place dir parts)
    (hplace : (disk.root.descend place).isSome) : disk.exists? dir = true := by
  obtain ⟨s, left, harrives, hwalks⟩ := h.arrives
  obtain ⟨node, hnode⟩ := Option.isSome_iff_exists.mp
    (hwalks.isSome_descend (by rwa [List.reverse_reverse]))
  rw [Disk.exists?, harrives.find_eq hnode]
  rfl

theorem Underway.leadsTo (h : Underway disk place dir []) : disk.LeadsTo dir place := by
  obtain ⟨s, left, harrives, hwalks⟩ := h.arrives
  cases hwalks
  exact ⟨left, harrives⟩

end Underway

section Search

variable {disk : Disk} {place : List String} {depth : ℕ} {dir path name : String} {c : Component}
  {rest : List Component} {folder : Bool}

/-- What ends a search for a place: a path that leads there, or a directory that cannot be listed. -/
def Hits (disk : Disk) (place : List String) : Met → Prop
  | .ok path => disk.LeadsTo path place
  | .error unlisted => disk.list unlisted.dir = .error unlisted.fault

/-- A search for components behind a directory that comes to a place, if nothing stops it. -/
def Finds (disk : Disk) (place : List String) (depth : ℕ) (dir : String) (folder : Bool)
    (cs : List Component) : Prop :=
  ∃ found ∈ (pending disk dir folder cs).flatMap (search disk false depth), Hits disk place found

theorem pending_literal (h : disk.exists? (below dir name) = true) :
    pending disk dir true (.literal name :: rest) =
      pending disk (below dir name) (disk.isFolder (below dir name)) rest := by
  rw [pending, h, Bool.true_or, ite_self]
  rfl

/-- What is held against names needs the directory listed. -/
theorem pending_held (hc : ∀ literal, c ≠ .literal literal) :
    pending disk dir true (c :: rest) =
      match disk.list dir with
      | .error fault => [.stuck ⟨dir, fault⟩]
      | .ok entries =>
        let special := if asksSpecial c then specialNames.filter (c.fitsName ·) else []
        let behind (name : String) :=
          let next := Path.join dir name
          pending disk next (disk.isFolder next) rest
        special.flatMap behind ++
          (entries.mergeSort fun a b ↦ a.1 ≤ b.1).map (lookAt disk dir (c :: rest)) := by
  cases c with
  | literal literal => exact absurd rfl (hc literal)
  | deep => rfl
  | fitting tokens => rfl

/-- A component that is held against names is held against the next one, if the directory can be
listed. -/
theorem Underway.pending_cases {parts : List String}
    (h : Underway disk place dir (name :: parts)) (hname : Path.IsName name)
    (hc : ∀ literal, c ≠ .literal literal) (rest : List Component) :
    (∃ fault, disk.list dir = .error fault ∧
      .stuck ⟨dir, fault⟩ ∈ pending disk dir true (c :: rest)) ∨
    ∃ folder, (parts ≠ [] → folder = true) ∧
      .look (below dir name) name folder (c :: rest) ∈ pending disk dir true (c :: rest) := by
  obtain ⟨entries, node, hfind, hmem, hfolder⟩ := h.exists_entry hname
  rw [pending_held hc]
  cases hlist : disk.list dir with
  | error fault => exact .inl ⟨fault, rfl, List.mem_singleton_self _⟩
  | ok others =>
    obtain rfl := Node.folder.inj (Except.ok.inj ((Disk.find_of_list hlist).symm.trans hfind))
    refine .inr ⟨showsFolder disk (below dir name) node, hfolder, List.mem_append_right _ ?_⟩
    exact List.mem_map_of_mem (f := lookAt disk dir (c :: rest)) (List.mem_mergeSort.mpr hmem)

/-- A path that fits is what the search comes to. -/
theorem search_fit : search disk false depth (.fit path) = [.ok path] := by
  rw [search]
  rfl

theorem search_stuck {unlisted : Unlisted} :
    search disk false depth (.stuck unlisted) = [.error unlisted] := by
  rw [search]

/-- A name that fits a component is gone past. -/
theorem search_look (hc : c ≠ .deep) (hname : c.fitsName name = true) :
    search disk false (depth + 1) (.look path name folder (c :: rest)) =
      (pending disk path folder rest).flatMap (search disk false depth) := by
  have hlast : (pending disk path folder []).flatMap (search disk false depth) = [.ok path] := by
    rw [pending, List.flatMap_singleton, search_fit]
  cases c with
  | deep => exact absurd rfl hc
  | literal literal =>
    cases rest <;> simp [search, against, hname, hlast]
  | fitting tokens =>
    cases rest <;> simp [search, against, hname, hlast]

/-- Any number of directories may go on in a directory. -/
theorem subset_search_deeper :
    (pending disk path true (.deep :: skipDeep rest)).flatMap (search disk false depth) ⊆
      search disk false (depth + 1) (.look path name true (.deep :: rest)) := by
  intro found hfound
  by_cases hrest : skipDeep rest = []
  · simp only [search, hrest, List.isEmpty_nil, if_true] at hfound ⊢
    exact List.mem_cons_of_mem _ hfound
  · simp only [search, List.isEmpty_iff, hrest, if_true, if_false]
    exact List.mem_append_right _ hfound

/-- Any number of directories may be none more, so that a name may fit what comes behind them. -/
theorem subset_search_behind {rest more : List Component} (hc : c ≠ .deep)
    (hname : c.fitsName name = true) (hrest : skipDeep rest = c :: more) :
    (pending disk path folder more).flatMap (search disk false depth) ⊆
      search disk false (depth + 1) (.look path name folder (.deep :: rest)) := by
  intro found hfound
  rw [← search_look hc hname] at hfound
  have hne : (c :: more).isEmpty = false := rfl
  simp only [search, hrest, hne, Bool.false_eq_true, if_false]
  refine List.mem_append_left _ ?_
  cases c with
  | deep => exact absurd rfl hc
  | literal literal => simpa [search] using hfound
  | fitting tokens => simpa [search] using hfound

theorem skipDeep_skipDeep (cs : List Component) : skipDeep (skipDeep cs) = skipDeep cs := by
  induction cs with
  | nil => rfl
  | cons c rest ih =>
    cases c with
    | deep => exact ih
    | literal literal => rfl
    | fitting tokens => rfl

theorem fitsName_literal (name : String) : (Component.literal name).fitsName name = true := by
  rw [Component.fitsName]
  exact decide_eq_true rfl

/-- What is found behind the next name is found, if the search goes on there. -/
theorem Finds.of_look {parts : List String} (behind : List Component)
    (hunderway : Underway disk place dir (name :: parts)) (hname : Path.IsName name)
    (hc : ∀ literal, c ≠ .literal literal)
    (hbehind : ∀ folder, (parts ≠ [] → folder = true) →
      (pending disk (below dir name) folder behind).flatMap (search disk false depth) ⊆
        search disk false (depth + 1) (.look (below dir name) name folder (c :: rest)))
    (h : ∀ folder, (parts ≠ [] → folder = true) →
      Finds disk place depth (below dir name) folder behind) :
    Finds disk place (depth + 1) dir true (c :: rest) := by
  obtain ⟨fault, hfault, hstuck⟩ | ⟨folder, hfolder, hlook⟩ :=
    hunderway.pending_cases hname hc rest
  · refine ⟨.error ⟨dir, fault⟩, List.mem_flatMap.mpr ⟨_, hstuck, ?_⟩, hfault⟩
    rw [search_stuck]
    exact List.mem_singleton_self _
  · obtain ⟨found, hfound, hhits⟩ := h folder hfolder
    exact ⟨found, List.mem_flatMap.mpr ⟨_, hlook, hbehind folder hfolder hfound⟩, hhits⟩

end Search

section Follows

variable {disk : Disk} {place : List String}

/-- Components that take the parts of a path for what they are. -/
inductive Follows : List String → List Component → Prop
  | nil : Follows [] []
  | literal {part : String} {parts : List String} {cs : List Component} (h : Follows parts cs) :
      Follows (part :: parts) (.literal part :: cs)
  | fitting {part : String} {parts : List String} {tokens : List Token} {cs : List Component}
      (hpart : Path.IsName part) (hfits : (Component.fitting tokens).fitsName part = true)
      (h : Follows parts cs) : Follows (part :: parts) (.fitting tokens :: cs)
  /-- Directories of any number are at least one if a name comes next. -/
  | deep {part next : String} {parts : List String} {cs : List Component}
      (hpart : Path.IsName part) (hnext : Path.IsName next) (h : Follows (next :: parts) cs) :
      Follows (part :: next :: parts) (.deep :: cs)

theorem Follows.length_eq {parts : List String} {cs : List Component} (h : Follows parts cs) :
    cs.length = parts.length := by
  induction h with
  | nil => rfl
  | literal h ih => rw [List.length_cons, List.length_cons, ih]
  | fitting hpart hfits h ih => rw [List.length_cons, List.length_cons, ih]
  | deep hpart hnext h ih => rw [List.length_cons, List.length_cons, ih]

/-- A name that comes after any number of directories may come after none. -/
theorem finds_between {part : String} {parts : List String} {c : Component}
    {between cs : List Component} {dir : String} {depth : ℕ} (hc : c ≠ .deep)
    (hname : c.fitsName part = true) (hpart : Path.IsName part)
    (hunderway : Underway disk place dir (part :: parts)) (hbetween : skipDeep between = c :: cs)
    (h : ∀ folder, (parts ≠ [] → folder = true) →
      Finds disk place depth (below dir part) folder cs) :
    Finds disk place (depth + 1) dir true (.deep :: between) :=
  .of_look _ hunderway hpart (fun _ ↦ Component.noConfusion)
    (fun _ _ ↦ subset_search_behind hc hname hbetween) h

/-- The search for components that follow the parts in front of it comes to the place; also when any
number of directories may come in between, before the next name. -/
theorem Follows.finds {parts : List String} {cs : List Component} (h : Follows parts cs)
    (hplace : (disk.root.descend place).isSome) :
    (∀ dir depth folder, (parts ≠ [] → folder = true) → Underway disk place dir parts →
      parts.length ≤ depth → Finds disk place depth dir folder cs) ∧
    ∀ part rest dir depth between, parts = part :: rest → Path.IsName part →
      Underway disk place dir parts → parts.length ≤ depth → skipDeep between = skipDeep cs →
        Finds disk place depth dir true (.deep :: between) := by
  induction h with
  | nil =>
    refine ⟨fun dir depth folder _ hunderway _ ↦ ?_,
      fun part rest dir depth between hparts ↦ nomatch hparts⟩
    refine ⟨.ok dir, ?_, hunderway.leadsTo⟩
    rw [pending, List.flatMap_singleton, search_fit]
    exact List.mem_singleton_self _
  | @literal part parts cs h ih =>
    constructor
    · intro dir depth folder hfolder hunderway hdepth
      obtain rfl := hfolder (List.cons_ne_nil _ _)
      rw [Finds, pending_literal (hunderway.next.exists? hplace)]
      exact ih.1 _ depth _ hunderway.next.isFolder hunderway.next (Nat.le_of_succ_le hdepth)
    · rintro _ _ dir (_ | depth) between ⟨⟩ hpart hunderway hdepth hbetween
      · exact absurd hdepth (Nat.not_succ_le_zero _)
      · exact finds_between Component.noConfusion (fitsName_literal part) hpart hunderway hbetween
          fun folder hfolder ↦ ih.1 _ depth folder hfolder hunderway.next
            (Nat.le_of_succ_le_succ hdepth)
  | @fitting part parts tokens cs hpart hfits h ih =>
    constructor
    · rintro dir (_ | depth) folder hfolder hunderway hdepth
      · exact absurd hdepth (Nat.not_succ_le_zero _)
      · obtain rfl := hfolder (List.cons_ne_nil _ _)
        exact .of_look _ hunderway hpart (fun _ ↦ Component.noConfusion)
          (fun _ _ found hfound ↦ by rwa [search_look Component.noConfusion hfits])
          fun folder hfolder ↦ ih.1 _ depth folder hfolder hunderway.next
            (Nat.le_of_succ_le_succ hdepth)
    · rintro _ _ dir (_ | depth) between ⟨⟩ _ hunderway hdepth hbetween
      · exact absurd hdepth (Nat.not_succ_le_zero _)
      · exact finds_between Component.noConfusion hfits hpart hunderway hbetween
          fun folder hfolder ↦ ih.1 _ depth folder hfolder hunderway.next
            (Nat.le_of_succ_le_succ hdepth)
  | @deep part next parts cs hpart hnext h ih =>
    -- the directory taken here is one of any number, and the next name may come after more of them
    have hbetween : ∀ dir depth between, Underway disk place dir (part :: next :: parts) →
        (part :: next :: parts).length ≤ depth → skipDeep between = skipDeep cs →
          Finds disk place depth dir true (.deep :: between) := by
      rintro dir (_ | depth) between hunderway hdepth hbetween
      · exact absurd hdepth (Nat.not_succ_le_zero _)
      · refine .of_look (.deep :: skipDeep between) hunderway hpart
          (fun _ ↦ Component.noConfusion) (fun folder hfolder ↦ ?_) fun folder hfolder ↦ ?_
        · obtain rfl := hfolder (List.cons_ne_nil _ _)
          exact subset_search_deeper
        · obtain rfl := hfolder (List.cons_ne_nil _ _)
          exact ih.2 next parts _ depth _ rfl hnext hunderway.next
            (Nat.le_of_succ_le_succ hdepth) (by rw [skipDeep_skipDeep, hbetween])
    refine ⟨fun dir depth folder hfolder hunderway hdepth ↦ ?_, ?_⟩
    · obtain rfl := hfolder (List.cons_ne_nil _ _)
      exact hbetween dir depth cs hunderway hdepth rfl
    · rintro _ _ dir depth between ⟨⟩ _ hunderway hdepth hskip
      exact hbetween dir depth between hunderway hdepth hskip

/-- A pattern whose components follow the parts of a path comes to where the path leads, unless it
meets a directory that cannot be listed. -/
theorem Follows.exists_mem_met {parts : List String} {p : Pattern}
    (h : Follows parts p.components) (hne : parts ≠ []) (hfolders : p.onlyFolders = false)
    (hunderway : Underway disk place p.start parts) (hplace : (disk.root.descend place).isSome) :
    ∃ found ∈ p.met disk, Hits disk place found := by
  have hcomponents : ¬p.components.isEmpty = true := by
    rw [List.isEmpty_iff, ← List.length_eq_zero_iff, h.length_eq, List.length_eq_zero_iff]
    exact hne
  have hdepth : parts.length ≤ depthLimit := by
    have hlength := Path.length_le_partsSize parts
    have hsize := hunderway.size_le
    rw [depthLimit]
    omega
  rw [Pattern.met, if_neg hcomponents, hfolders]
  exact (h.finds hplace).1 _ depthLimit _ (fun _ ↦ hunderway.isFolder hne) hunderway hdepth

end Follows

section Stuck

variable {disk : Disk} {unlisted : Unlisted}

/-- The search is stuck only at directories that cannot be listed. -/
theorem list_of_stuck_mem_pending {cs : List Component} {dir : String} {folder : Bool}
    (h : .stuck unlisted ∈ pending disk dir folder cs) :
    disk.list unlisted.dir = .error unlisted.fault := by
  induction cs generalizing dir folder with
  | nil =>
    rw [pending, List.mem_singleton] at h
    exact nomatch h
  | cons c rest ih =>
    by_cases hc : ∃ name, c = .literal name
    · obtain ⟨name, rfl⟩ := hc
      rw [pending] at h
      split at h
      · split at h
        · exact ih h
        · exact absurd h List.not_mem_nil
      · split at h
        · exact ih h
        · exact absurd h List.not_mem_nil
    · cases folder with
      | false =>
        rw [pending, if_neg Bool.false_ne_true] at h
        · exact absurd h List.not_mem_nil
        · exact fun name hname ↦ hc ⟨name, hname⟩
      | true =>
        rw [pending_held fun name hname ↦ hc ⟨name, hname⟩] at h
        cases hlist : disk.list dir with
        | error fault =>
          rw [hlist, List.mem_singleton] at h
          obtain rfl := Pending.stuck.inj h
          exact hlist
        | ok entries =>
          rw [hlist] at h
          rcases List.mem_append.mp h with h | h
          · obtain ⟨name, -, hname⟩ := List.mem_flatMap.mp h
            exact ih hname
          · obtain ⟨entry, -, hentry⟩ := List.mem_map.mp h
            exact nomatch hentry

variable {onlyFolders : Bool} {depth : ℕ}

/-- What is told of a directory when a name is looked at is told of it behind the name. -/
theorem exists_of_error_mem_search_look {path name : String} {folder : Bool} {cs : List Component}
    (h : .error unlisted ∈ search disk onlyFolders (depth + 1) (.look path name folder cs)) :
    ∃ behind, ∃ p ∈ pending disk path folder behind,
      .error unlisted ∈ search disk onlyFolders depth p := by
  have hbehind {cs : List Component}
      (h : .error unlisted ∈ (pending disk path folder cs).flatMap
        (search disk onlyFolders depth)) :
      ∃ behind, ∃ p ∈ pending disk path folder behind,
        .error unlisted ∈ search disk onlyFolders depth p := by
    obtain ⟨p, hpending, hmem⟩ := List.mem_flatMap.mp h
    exact ⟨cs, p, hpending, hmem⟩
  have hheld {cs : List Component}
      (h : .error unlisted ∈ against onlyFolders path name folder
        (fun cs ↦ (pending disk path folder cs).flatMap (search disk onlyFolders depth)) cs) :
      ∃ behind, ∃ p ∈ pending disk path folder behind,
        .error unlisted ∈ search disk onlyFolders depth p := by
    unfold against at h
    split at h
    · exact absurd h List.not_mem_nil
    · split_ifs at h
      · exact nomatch List.mem_singleton.mp h
      · exact absurd h List.not_mem_nil
    · split_ifs at h
      · exact hbehind h
      · exact absurd h List.not_mem_nil
  unfold search at h
  dsimp only at h
  split at h
  · split_ifs at h with hrest hfolder hfolder
    · rcases List.mem_cons.mp h with h | h
      · exact nomatch h
      · exact hbehind h
    · exact absurd h List.not_mem_nil
    · rcases List.mem_append.mp h with h | h
      · exact hheld h
      · exact hbehind h
    · rw [List.append_nil] at h
      exact hheld h
  · exact hheld h

theorem list_of_error_mem_search {p : Pending}
    (hp : p = .stuck unlisted → disk.list unlisted.dir = .error unlisted.fault)
    (h : .error unlisted ∈ search disk onlyFolders depth p) :
    disk.list unlisted.dir = .error unlisted.fault := by
  induction depth generalizing p with
  | zero =>
    cases p with
    | stuck other =>
      rw [search, List.mem_singleton] at h
      exact hp (congrArg Pending.stuck (Except.error.inj h).symm)
    | fit path =>
      rw [search] at h
      split_ifs at h
      · exact absurd h List.not_mem_nil
      · exact nomatch List.mem_singleton.mp h
    | look path name folder cs =>
      rw [search] at h
      exact absurd h List.not_mem_nil
  | succ depth ih =>
    cases p with
    | stuck other =>
      rw [search, List.mem_singleton] at h
      exact hp (congrArg Pending.stuck (Except.error.inj h).symm)
    | fit path =>
      rw [search] at h
      split_ifs at h
      · exact absurd h List.not_mem_nil
      · exact nomatch List.mem_singleton.mp h
    | look path name folder cs =>
      obtain ⟨behind, p, hpending, hmem⟩ := exists_of_error_mem_search_look h
      exact ih (fun hp ↦ list_of_stuck_mem_pending (hp ▸ hpending)) hmem

theorem list_of_error_mem_met {p : Pattern} (h : .error unlisted ∈ p.met disk) :
    disk.list unlisted.dir = .error unlisted.fault := by
  unfold Pattern.met at h
  split_ifs at h
  · exact absurd h List.not_mem_nil
  · obtain ⟨first, hpending, hmem⟩ := List.mem_flatMap.mp h
    exact list_of_error_mem_search (fun hfirst ↦ list_of_stuck_mem_pending (hfirst ▸ hpending)) hmem

/-- What a pattern fails with is a directory that cannot be listed. -/
theorem list_of_paths_eq_error {p : Pattern} (h : p.paths disk = .error unlisted) :
    disk.list unlisted.dir = .error unlisted.fault :=
  list_of_error_mem_met (error_mem_of_mapM_id h)

end Stuck

end FenceLint.Glob
