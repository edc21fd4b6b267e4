import FenceLint.Disk.Basic
import FenceLint.Proofs.Disk.Path
import Mathlib.Data.List.Nodup

/-!
Trees of folders. What holds of a folder when it holds of all that is in it holds of every tree
(`Node.byEntries`). In a tree that is well named a name stands for one thing, and that holds of
everything below it.
-/

set_option autoImplicit false

namespace FenceLint

namespace Node

variable {tree node : Node} {names : List String}

mutual

/-- Induction on trees: a folder has what everything in it has. -/
@[elab_as_elim]
theorem byEntries {motive : Node → Prop}
    (file : ∀ text? executable, motive (.file text? executable))
    (link : ∀ target, motive (.link target))
    (folder : ∀ entries, (∀ entry ∈ entries, motive entry.2) → motive (.folder entries)) :
    ∀ node, motive node
  | .file text? executable => file text? executable
  | .link target => link target
  | .folder entries => folder entries (ofEntries file link folder entries)

theorem ofEntries {motive : Node → Prop}
    (file : ∀ text? executable, motive (.file text? executable))
    (link : ∀ target, motive (.link target))
    (folder : ∀ entries, (∀ entry ∈ entries, motive entry.2) → motive (.folder entries)) :
    ∀ entries : List (String × Node), ∀ entry ∈ entries, motive entry.2
  | [], _, hentry => absurd hentry List.not_mem_nil
  | (name, node) :: rest, entry, hentry => by
    rcases List.mem_cons.mp hentry with rfl | hentry
    · exact byEntries file link folder node
    · exact ofEntries file link folder rest entry hentry

end

theorem descend_append (tree : Node) (front back : List String) :
    tree.descend (front ++ back) = (tree.descend front).bind fun node ↦ node.descend back := by
  induction front generalizing tree with
  | nil => rfl
  | cons name rest ih =>
    rw [List.cons_append, descend, descend, Option.bind_assoc]
    exact congrArg (Option.bind (tree.child? name)) (funext ih)

/-- A folder is found only in folders. -/
theorem exists_entries_of_descend {entries : List (String × Node)}
    (h : node.descend names = some (.folder entries)) : ∃ own, node = .folder own := by
  cases node with
  | folder own => exact ⟨own, rfl⟩
  | file text? executable =>
    cases names with
    | nil => exact nomatch h
    | cons name rest => exact nomatch h
  | link target =>
    cases names with
    | nil => exact nomatch h
    | cons name rest => exact nomatch h

theorem mem_entries_of_child? {name : String} (h : tree.child? name = some node) :
    (name, node) ∈ tree.entries := by
  obtain ⟨front, back, hentries, -⟩ := List.lookup_eq_some_iff.mp h
  rw [hentries]
  exact List.mem_append_right front List.mem_cons_self

/-- A tree whose folders hold distinct names, all of them names that a directory can hold. -/
def WellNamed (tree : Node) : Prop :=
  ∀ names entries, tree.descend names = some (.folder entries) →
    (entries.map Prod.fst).Nodup ∧ ∀ entry ∈ entries, Path.IsName entry.1

theorem wellNamed_file (text? : Option String) (executable : Bool) :
    (file text? executable).WellNamed := by
  intro names entries h
  obtain ⟨own, hown⟩ := exists_entries_of_descend h
  exact nomatch hown

theorem wellNamed_link (target : String) : (link target).WellNamed := by
  intro names entries h
  obtain ⟨own, hown⟩ := exists_entries_of_descend h
  exact nomatch hown

theorem wellNamed_folder {entries : List (String × Node)} (hnodup : (entries.map Prod.fst).Nodup)
    (hnames : ∀ entry ∈ entries, Path.IsName entry.1)
    (hnodes : ∀ entry ∈ entries, entry.2.WellNamed) : (folder entries).WellNamed := by
  rintro (_ | ⟨name, rest⟩) others h
  · obtain rfl := folder.inj (Option.some.inj h)
    exact ⟨hnodup, hnames⟩
  · obtain ⟨child, hchild, hrest⟩ := Option.bind_eq_some_iff.mp h
    exact hnodes (name, child) (mem_entries_of_child? hchild) rest others hrest

theorem WellNamed.of_descend (h : tree.WellNamed) (hnode : tree.descend names = some node) :
    node.WellNamed := by
  intro below entries hbelow
  refine h (names ++ below) entries ?_
  rw [descend_append, hnode]
  exact hbelow

theorem WellNamed.nodup (h : node.WellNamed) : (node.entries.map Prod.fst).Nodup := by
  cases node with
  | folder entries => exact (h [] entries rfl).1
  | file text? executable => exact List.nodup_nil
  | link target => exact List.nodup_nil

theorem WellNamed.isName (h : node.WellNamed) {entry : String × Node}
    (hentry : entry ∈ node.entries) : Path.IsName entry.1 := by
  cases node with
  | folder entries => exact (h [] entries rfl).2 entry hentry
  | file text? executable => exact absurd hentry List.not_mem_nil
  | link target => exact absurd hentry List.not_mem_nil

/-- What a name in a folder stands for is what the folder holds under that name. -/
theorem WellNamed.child?_eq_some_iff (h : tree.WellNamed) {name : String} :
    tree.child? name = some node ↔ (name, node) ∈ tree.entries := by
  refine ⟨mem_entries_of_child?, fun hmem ↦ ?_⟩
  rw [child?, List.lookup_eq_some_iff]
  obtain ⟨front, back, hentries⟩ := List.append_of_mem hmem
  refine ⟨front, back, hentries, fun entry hentry ↦ bne_iff_ne.mpr ?_⟩
  have hnodup := h.nodup
  rw [hentries, List.map_append, List.map_cons] at hnodup
  rintro rfl
  exact List.disjoint_of_nodup_append hnodup (List.mem_map_of_mem hentry) List.mem_cons_self

theorem WellNamed.of_child? (h : tree.WellNamed) {name : String}
    (hchild : tree.child? name = some node) : node.WellNamed := by
  have hdescend : tree.descend [name] = some node := by
    rw [descend, hchild]
    rfl
  exact h.of_descend hdescend

theorem WellNamed.of_mem_entries (h : tree.WellNamed) {entry : String × Node}
    (hentry : entry ∈ tree.entries) : entry.2.WellNamed :=
  h.of_child? (h.child?_eq_some_iff.mpr hentry)

end Node

end FenceLint
