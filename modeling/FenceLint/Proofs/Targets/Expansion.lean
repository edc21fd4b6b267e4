import FenceLint.Targets.Basic
import Mathlib.Data.List.Forall2

/-!
What inputs expand to. Although the files of all inputs are gathered in one list, each input adds
just the files that it stands for by itself, or fails as it fails by itself (`gather_eq`). Inputs
therefore expand to what they stand for one by one (`expand_eq_ok_iff`), or the first of them that
fails decides the error (`expand_eq_error_iff`), and the same holds with a directory behind them
(`resolve_eq_ok_iff`, `resolve_eq_error_iff`).
-/

set_option autoImplicit false

namespace FenceLint.Targets

variable {disk : Disk}

section Input

variable {input : String} {files : List String} {e : Error}

/-- The files that a pattern matches. -/
def matching (disk : Disk) (pattern : String) : Except Error (List String) :=
  match Glob.Pattern.parse pattern with
  | .error e => .error (.usage s!"invalid glob pattern '{pattern}': {e.message}")
  | .ok p =>
    match p.paths disk with
    | .error unlisted => .error (.unsearchable pattern unlisted.dir unlisted.fault)
    | .ok paths =>
      match paths.filter disk.isFile with
      | [] => .error (.noMatches pattern)
      | files => .ok files

/-- What one input stands for by itself. -/
def expandInput (disk : Disk) (input : String) : Except Error (List String) :=
  if isPattern input then matching disk input
  else if disk.exists? input then .ok [input]
  else .error (.missing input)

/-- The documents of one input: an existing path alone, or the files that a pattern matches, of which
there must be some. For these the search has to come to its end. -/
inductive StandsFor (disk : Disk) (input : String) : List String → Prop
  | path (hplain : isPattern input = false) (hexists : disk.exists? input = true) :
    StandsFor disk input [input]
  | pattern {p : Glob.Pattern} {paths : List String} (hpattern : isPattern input = true)
    (hparse : Glob.Pattern.parse input = .ok p) (hsearch : p.paths disk = .ok paths)
    (hmatch : ∃ path ∈ paths, disk.isFile path = true) :
    StandsFor disk input (paths.filter disk.isFile)

/-- The error of one input: a path that leads nowhere, a pattern that is not well formed, one whose
search meets a directory that cannot be listed, or one that matches no file. -/
inductive Refused (disk : Disk) (input : String) : Error → Prop
  | missing (hplain : isPattern input = false) (hexists : disk.exists? input = false) :
    Refused disk input (.missing input)
  | malformed {mistake : Glob.PatternError} (hpattern : isPattern input = true)
    (hparse : Glob.Pattern.parse input = .error mistake) :
    Refused disk input (.usage s!"invalid glob pattern '{input}': {mistake.message}")
  | unsearchable {p : Glob.Pattern} {unlisted : Disk.Unlisted} (hpattern : isPattern input = true)
    (hparse : Glob.Pattern.parse input = .ok p) (hsearch : p.paths disk = .error unlisted) :
    Refused disk input (.unsearchable input unlisted.dir unlisted.fault)
  | unmatched {p : Glob.Pattern} {paths : List String} (hpattern : isPattern input = true)
    (hparse : Glob.Pattern.parse input = .ok p) (hsearch : p.paths disk = .ok paths)
    (hmatch : ∀ path ∈ paths, disk.isFile path = false) : Refused disk input (.noMatches input)

theorem StandsFor.ne_nil (h : StandsFor disk input files) : files ≠ [] := by
  cases h with
  | path => exact List.cons_ne_nil _ _
  | pattern hpattern hparse hsearch hmatch =>
    obtain ⟨path, hpath, hfile⟩ := hmatch
    exact List.ne_nil_of_mem (List.mem_filter.mpr ⟨hpath, hfile⟩)

theorem StandsFor.expandInput_eq (h : StandsFor disk input files) :
    expandInput disk input = .ok files := by
  cases h with
  | path hplain hexists => simp [expandInput, hplain, hexists]
  | pattern hpattern hparse hsearch hmatch =>
    -- because of `hfiles` the files that match are taken as they are
    have hfiles := (StandsFor.pattern hpattern hparse hsearch hmatch).ne_nil
    rw [expandInput, if_pos hpattern]
    simp only [matching, hparse, hsearch]

theorem Refused.expandInput_eq (h : Refused disk input e) :
    expandInput disk input = .error e := by
  cases h with
  | missing hplain hexists => simp [expandInput, hplain, hexists]
  | malformed hpattern hparse =>
    rw [expandInput, if_pos hpattern]
    simp only [matching, hparse]
  | unsearchable hpattern hparse hsearch =>
    rw [expandInput, if_pos hpattern]
    simp only [matching, hparse, hsearch]
  | @unmatched p paths hpattern hparse hsearch hmatch =>
    have hnone : paths.filter disk.isFile = [] :=
      List.filter_eq_nil_iff.mpr fun path hpath ↦ Bool.eq_false_iff.mp (hmatch path hpath)
    rw [expandInput, if_pos hpattern]
    simp only [matching, hparse, hsearch, hnone]

theorem standsFor_or_refused (disk : Disk) (input : String) :
    (∃ files, StandsFor disk input files) ∨ ∃ e, Refused disk input e := by
  cases hpattern : isPattern input with
  | true =>
    cases hparse : Glob.Pattern.parse input with
    | error mistake => exact .inr ⟨_, .malformed hpattern hparse⟩
    | ok p =>
      cases hsearch : p.paths disk with
      | error unlisted => exact .inr ⟨_, .unsearchable hpattern hparse hsearch⟩
      | ok paths =>
        by_cases hmatch : ∃ path ∈ paths, disk.isFile path = true
        · exact .inl ⟨_, .pattern hpattern hparse hsearch hmatch⟩
        · refine .inr ⟨_, .unmatched hpattern hparse hsearch fun path hpath ↦ ?_⟩
          exact Bool.eq_false_iff.mpr fun hfile ↦ hmatch ⟨path, hpath, hfile⟩
  | false =>
    cases hexists : disk.exists? input with
    | true => exact .inl ⟨_, .path hpattern hexists⟩
    | false => exact .inr ⟨_, .missing hpattern hexists⟩

theorem expandInput_eq_ok_iff : expandInput disk input = .ok files ↔ StandsFor disk input files := by
  refine ⟨fun hok ↦ ?_, StandsFor.expandInput_eq⟩
  obtain ⟨others, h⟩ | ⟨e, h⟩ := standsFor_or_refused disk input
  · obtain rfl := Except.ok.inj (h.expandInput_eq.symm.trans hok)
    exact h
  · exact nomatch h.expandInput_eq.symm.trans hok

theorem expandInput_eq_error_iff : expandInput disk input = .error e ↔ Refused disk input e := by
  refine ⟨fun herror ↦ ?_, Refused.expandInput_eq⟩
  obtain ⟨files, h⟩ | ⟨other, h⟩ := standsFor_or_refused disk input
  · exact nomatch h.expandInput_eq.symm.trans herror
  · obtain rfl := Except.error.inj (h.expandInput_eq.symm.trans herror)
    exact h

/-- However many files are there already, an input adds its own or fails by itself: the list grows
just when the input has files of its own. -/
theorem gather_eq (files : List String) (input : String) :
    gather disk files input = (expandInput disk input).map (files ++ ·) := by
  unfold gather expandInput matching
  cases isPattern input with
  | true =>
    cases Glob.Pattern.parse input with
    | error mistake => rfl
    | ok p =>
      simp only [if_pos]
      cases p.paths disk with
      | error unlisted => rfl
      | ok paths => cases hmatch : paths.filter disk.isFile <;> simp [Except.map, hmatch]
  | false =>
    cases disk.exists? input with
    | true => rfl
    | false => rfl

end Input

section Inputs

variable {inputs : List String} {files : List String} {e : Error}

theorem expand_nil : expand disk [] = .ok [] := rfl

/-- Files that are there already stay in front of those that come. -/
theorem foldlM_gather (files inputs : List String) :
    inputs.foldlM (gather disk) files = (expand disk inputs).map (files ++ ·) := by
  induction inputs generalizing files with
  | nil => exact congrArg Except.ok (List.append_nil files).symm
  | cons input rest ih =>
    rw [expand, List.foldlM_cons, List.foldlM_cons, gather_eq, gather_eq]
    cases expandInput disk input with
    | error e => rfl
    | ok own =>
      change rest.foldlM (gather disk) (files ++ own) =
        (rest.foldlM (gather disk) ([] ++ own)).map (files ++ ·)
      rw [ih, ih]
      cases expand disk rest with
      | error e => rfl
      | ok others => simp [Except.map]

/-- Inputs in two parts expand to what the first part and then what the second part expands to. -/
theorem expand_append_eq (front back : List String) :
    expand disk (front ++ back) =
      (do let files ← expand disk front
          let others ← expand disk back
          pure (files ++ others)) := by
  rw [expand, List.foldlM_append]
  change (expand disk front >>= fun files ↦ back.foldlM (gather disk) files) = _
  congr 1
  funext files
  exact foldlM_gather files back

theorem expand_singleton (input : String) :
    expand disk [input] = expandInput disk input := by
  rw [expand, List.foldlM_cons, gather_eq]
  cases expandInput disk input with
  | error e => rfl
  | ok files => rfl

/-- The first of some inputs stands for its files, and the others expand to theirs. -/
theorem expand_cons_eq_ok_iff {input : String} :
    expand disk (input :: inputs) = .ok files ↔
      ∃ own others, StandsFor disk input own ∧ expand disk inputs = .ok others ∧
        files = own ++ others := by
  rw [← List.singleton_append, expand_append_eq, expand_singleton]
  simp only [← expandInput_eq_ok_iff]
  cases expandInput disk input with
  | error e => simp [bind, Except.bind]
  | ok own =>
    cases expand disk inputs with
    | error e => simp [bind, Except.bind]
    | ok others => simp [bind, Except.bind, pure, Except.pure, eq_comm]

/-- The first of some inputs is refused, or one of the others is. -/
theorem expand_cons_eq_error_iff {input : String} :
    expand disk (input :: inputs) = .error e ↔
      Refused disk input e ∨
        (∃ own, StandsFor disk input own) ∧ expand disk inputs = .error e := by
  rw [← List.singleton_append, expand_append_eq, expand_singleton]
  simp only [← expandInput_eq_ok_iff, ← expandInput_eq_error_iff]
  cases expandInput disk input with
  | error other => simp [bind, Except.bind]
  | ok own =>
    cases expand disk inputs with
    | error other => simp [bind, Except.bind]
    | ok others => simp [bind, Except.bind, pure, Except.pure]

/-- Inputs expand if each of them stands for some files, and to these files one after the other. -/
theorem expand_eq_ok_iff :
    expand disk inputs = .ok files ↔
      ∃ groups, List.Forall₂ (StandsFor disk) inputs groups ∧ files = groups.flatten := by
  induction inputs generalizing files with
  | nil =>
    rw [expand_nil, Except.ok.injEq, eq_comm]
    simp only [List.forall₂_nil_left_iff, exists_eq_left, List.flatten_nil]
  | cons input rest ih =>
    rw [expand_cons_eq_ok_iff]
    constructor
    · rintro ⟨own, others, hown, hothers, rfl⟩
      obtain ⟨groups, hgroups, rfl⟩ := ih.mp hothers
      exact ⟨own :: groups, .cons hown hgroups, List.flatten_cons.symm⟩
    · rintro ⟨groups, hgroups, rfl⟩
      obtain ⟨own, others, hown, hothers, rfl⟩ := List.forall₂_cons_left_iff.mp hgroups
      exact ⟨own, others.flatten, hown, ih.mpr ⟨others, hothers, rfl⟩, List.flatten_cons⟩

/-- Some input is refused with an error, and all in front of it stand for files. -/
def FirstRefused (disk : Disk) (inputs : List String) (e : Error) : Prop :=
  ∃ front input back, inputs = front ++ input :: back ∧
    (∀ other ∈ front, ∃ files, StandsFor disk other files) ∧ Refused disk input e

/-- Inputs fail with the error of the first that is refused. -/
theorem expand_eq_error_iff : expand disk inputs = .error e ↔ FirstRefused disk inputs e := by
  induction inputs with
  | nil =>
    constructor
    · intro hnone
      exact nomatch hnone
    · rintro ⟨front, input, back, hinputs, -⟩
      exact absurd hinputs.symm (List.append_ne_nil_of_right_ne_nil _ (List.cons_ne_nil _ _))
  | cons input rest ih =>
    rw [expand_cons_eq_error_iff, ih]
    constructor
    · rintro (hrefused | ⟨hown, front, other, back, rfl, hfront, hrefused⟩)
      · exact ⟨[], input, rest, rfl, fun _ hother ↦ absurd hother List.not_mem_nil, hrefused⟩
      · exact ⟨input :: front, other, back, rfl, List.forall_mem_cons.mpr ⟨hown, hfront⟩, hrefused⟩
    · rintro ⟨front, other, back, hinputs, hfront, hrefused⟩
      cases front with
      | nil =>
        obtain ⟨rfl, rfl⟩ := List.cons.inj hinputs
        exact .inl hrefused
      | cons first front =>
        obtain ⟨rfl, rfl⟩ := List.cons.inj hinputs
        obtain ⟨hown, hfront⟩ := List.forall_mem_cons.mp hfront
        exact .inr ⟨hown, front, other, back, rfl, hfront, hrefused⟩

theorem exists_expand_iff :
    (∃ files, expand disk inputs = .ok files) ↔
      ∀ input ∈ inputs, ∃ files, StandsFor disk input files := by
  induction inputs with
  | nil => exact ⟨fun _ _ hinput ↦ absurd hinput List.not_mem_nil, fun _ ↦ ⟨[], expand_nil⟩⟩
  | cons input rest ih =>
    rw [List.forall_mem_cons, ← ih]
    constructor
    · rintro ⟨files, hfiles⟩
      obtain ⟨own, others, hown, hothers, -⟩ := expand_cons_eq_ok_iff.mp hfiles
      exact ⟨⟨own, hown⟩, others, hothers⟩
    · rintro ⟨⟨own, hown⟩, others, hothers⟩
      exact ⟨own ++ others, expand_cons_eq_ok_iff.mpr ⟨own, others, hown, hothers, rfl⟩⟩

/-- Nothing comes of no inputs alone. -/
theorem expand_eq_ok_nil_iff (disk : Disk) : expand disk inputs = .ok [] ↔ inputs = [] := by
  cases inputs with
  | nil => exact ⟨fun _ ↦ rfl, fun _ ↦ expand_nil⟩
  | cons input rest =>
    refine ⟨fun hnone ↦ ?_, fun hinputs ↦ absurd hinputs (List.cons_ne_nil _ _)⟩
    obtain ⟨own, others, hown, -, hfiles⟩ := expand_cons_eq_ok_iff.mp hnone
    exact absurd (List.append_eq_nil_iff.mp hfiles.symm).1 hown.ne_nil

end Inputs

section Directory

variable {inputs : List String} {dir? : Option String} {dir : String} {deep : Bool} {t : Targets}
  {files : List String} {e : Error}

/-- Whether one path is asked for by name and nothing else. -/
def byName (inputs : List String) (dir? : Option String) : Bool :=
  match inputs with
  | [input] => dir?.isNone && !isPattern input
  | _ => false

theorem byName_iff :
    byName inputs dir? = true ↔
      ∃ input, inputs = [input] ∧ isPattern input = false ∧ dir? = none := by
  unfold byName
  split
  · simp [and_comm]
  · rename_i hmany
    simp only [Bool.false_eq_true, false_iff]
    rintro ⟨input, rfl, -⟩
    exact hmany input rfl

theorem scan_ne_nil (h : scan disk dir deep = .ok files) : files ≠ [] := by
  unfold scan at h
  split at h
  · split at h
    · exact nomatch h
    · exact nomatch h
    · rename_i hsome _
      obtain rfl := Except.ok.inj h
      exact mt List.map_eq_nil_iff.mp hsome
  · exact nomatch h

/-- The files that a directory adds, if one is given. -/
def scanned (disk : Disk) (deep : Bool) : Option String → Except Error (List String)
  | none => .ok []
  | some dir => scan disk dir deep

/-- What inputs and a directory select: the files of each input, and behind them those of the
directory. -/
structure Selects (disk : Disk) (inputs : List String) (dir? : Option String) (deep : Bool)
    (groups : List (List String)) (more : List String) : Prop where
  inputs : List.Forall₂ (StandsFor disk) inputs groups
  directory : scanned disk deep dir? = .ok more
  nonempty : groups.flatten ++ more ≠ []

theorem resolve_eq (disk : Disk) (inputs : List String) (dir? : Option String) (deep : Bool) :
    resolve disk inputs dir? deep =
      (do let named ← expand disk inputs
          let more ← scanned disk deep dir?
          if named ++ more = [] then .error (.usage "no input documents given")
          else pure ⟨named ++ more, byName inputs dir?⟩) := by
  unfold resolve
  simp only [List.isEmpty_iff]
  cases dir? with
  | none => rfl
  | some dir => rfl

theorem scanned_eq_ok_nil_iff (disk : Disk) (deep : Bool) :
    scanned disk deep dir? = .ok [] ↔ dir? = none := by
  cases dir? with
  | none => exact ⟨fun _ ↦ rfl, fun _ ↦ rfl⟩
  | some dir =>
    refine ⟨fun hnone ↦ absurd rfl (scan_ne_nil hnone), fun hdir ↦ ?_⟩
    exact absurd hdir (Option.some_ne_none dir)

theorem scanned_eq_error_iff :
    scanned disk deep dir? = .error e ↔ ∃ dir, dir? = some dir ∧ scan disk dir deep = .error e := by
  cases dir? with
  | none => simp [scanned]
  | some dir => simp [scanned]

/-- Targets are found if every input and the directory add their files, and there are some. -/
theorem resolve_eq_ok_iff :
    resolve disk inputs dir? deep = .ok t ↔
      ∃ groups more, Selects disk inputs dir? deep groups more ∧
        t = ⟨groups.flatten ++ more, byName inputs dir?⟩ := by
  rw [resolve_eq]
  constructor
  · intro h
    cases hnamed : expand disk inputs with
    | error e => exact nomatch hnamed ▸ h
    | ok named =>
      cases hmore : scanned disk deep dir? with
      | error e =>
        rw [hnamed, hmore] at h
        exact nomatch h
      | ok more =>
        rw [hnamed, hmore] at h
        obtain ⟨groups, hgroups, rfl⟩ := expand_eq_ok_iff.mp hnamed
        by_cases hnone : groups.flatten ++ more = []
        · exact nomatch (if_pos hnone).symm.trans h
        · have ht := Except.ok.inj ((if_neg hnone).symm.trans h)
          exact ⟨groups, more, ⟨hgroups, hmore, hnone⟩, ht.symm⟩
  · rintro ⟨groups, more, ⟨hgroups, hmore, hsome⟩, rfl⟩
    rw [expand_eq_ok_iff.mpr ⟨groups, hgroups, rfl⟩, hmore]
    exact if_neg hsome

/-- Otherwise the first input that is refused decides the error, after the inputs the directory, and
after both that there is neither. -/
theorem resolve_eq_error_iff :
    resolve disk inputs dir? deep = .error e ↔
      FirstRefused disk inputs e ∨
        (∀ input ∈ inputs, ∃ files, StandsFor disk input files) ∧
          ((∃ dir, dir? = some dir ∧ scan disk dir deep = .error e) ∨
            inputs = [] ∧ dir? = none ∧ e = .usage "no input documents given") := by
  rw [resolve_eq, ← expand_eq_error_iff, ← exists_expand_iff, ← scanned_eq_error_iff,
    ← expand_eq_ok_nil_iff disk, ← scanned_eq_ok_nil_iff disk deep]
  cases expand disk inputs with
  | error other => simp [bind, Except.bind]
  | ok named =>
    cases scanned disk deep dir? with
    | error other => simp [bind, Except.bind]
    | ok more =>
      by_cases hnone : named ++ more = []
      · obtain ⟨rfl, rfl⟩ := List.append_eq_nil_iff.mp hnone
        simp [bind, Except.bind, eq_comm]
      · constructor
        · intro h
          exact nomatch (if_neg hnone).symm.trans h
        · rintro (hrefused | ⟨-, hscan | ⟨hnamed, hmore, -⟩⟩)
          · exact nomatch hrefused
          · exact nomatch hscan
          · obtain rfl := Except.ok.inj hnamed
            obtain rfl := Except.ok.inj hmore
            exact absurd rfl hnone

/-- What keeps targets from being found is an input or a directory without files, or that there is
neither. -/
theorem exists_resolve_iff :
    (∃ t, resolve disk inputs dir? deep = .ok t) ↔
      (∀ input ∈ inputs, ∃ files, StandsFor disk input files) ∧
        (∀ dir, dir? = some dir → ∃ files, scan disk dir deep = .ok files) ∧
          (inputs ≠ [] ∨ dir? ≠ none) := by
  constructor
  · rintro ⟨t, ht⟩
    obtain ⟨groups, more, hselects, -⟩ := resolve_eq_ok_iff.mp ht
    refine ⟨exists_expand_iff.mp ⟨_, expand_eq_ok_iff.mpr ⟨groups, hselects.inputs, rfl⟩⟩, ?_, ?_⟩
    · rintro dir rfl
      exact ⟨more, hselects.directory⟩
    · by_contra hnone
      push Not at hnone
      obtain ⟨rfl, rfl⟩ := hnone
      obtain rfl := List.forall₂_nil_left_iff.mp hselects.inputs
      obtain rfl := Except.ok.inj hselects.directory
      exact hselects.nonempty rfl
  · rintro ⟨hinputs, hdirectory, hsome⟩
    cases h : resolve disk inputs dir? deep with
    | ok t => exact ⟨t, rfl⟩
    | error e =>
      exfalso
      rcases resolve_eq_error_iff.mp h with hrefused | ⟨-, ⟨dir, hdir, hscan⟩ | ⟨hnone, hdir, -⟩⟩
      · obtain ⟨front, input, back, rfl, -, hrefused⟩ := hrefused
        obtain ⟨files, hfiles⟩ := hinputs input (by simp)
        exact nomatch hfiles.expandInput_eq.symm.trans hrefused.expandInput_eq
      · obtain ⟨files, hfiles⟩ := hdirectory dir hdir
        exact nomatch hfiles.symm.trans hscan
      · exact hsome.elim (absurd hnone) (absurd hdir)

/-- Where the search for a pattern gives these paths, an input has documents if it is a path that
exists, or a pattern that is well formed and has a file among them. -/
theorem exists_standsFor_iff {input : String} {given : List String}
    (hgiven : isPattern input = true → ∀ p, Glob.Pattern.parse input = .ok p →
      p.paths disk = .ok given) :
    (∃ files, StandsFor disk input files) ↔
      (isPattern input = false → disk.exists? input = true) ∧
        (isPattern input = true → (∃ p, Glob.Pattern.parse input = .ok p) ∧
          ∃ path ∈ given, disk.isFile path = true) := by
  constructor
  · rintro ⟨files, hfiles⟩
    cases hfiles with
    | path hplain hexists =>
      exact ⟨fun _ ↦ hexists, fun hpattern ↦ absurd (hplain.symm.trans hpattern) Bool.false_ne_true⟩
    | pattern hpattern hparse hsearch hmatch =>
      obtain rfl := Except.ok.inj (hsearch.symm.trans (hgiven hpattern _ hparse))
      exact ⟨fun hplain ↦ absurd (hplain.symm.trans hpattern) Bool.false_ne_true,
        fun _ ↦ ⟨⟨_, hparse⟩, hmatch⟩⟩
  · rintro ⟨hplain, hpattern⟩
    cases h : isPattern input with
    | false => exact ⟨_, .path h (hplain h)⟩
    | true =>
      obtain ⟨⟨p, hparse⟩, hmatch⟩ := hpattern h
      exact ⟨_, .pattern h hparse (hgiven h p hparse) hmatch⟩

/-- One path that was asked for by name, and nothing else, is the one document. -/
theorem documents_of_byName {input : String} (h : resolve disk inputs dir? deep = .ok t)
    (hinputs : inputs = [input]) (hplain : isPattern input = false) (hdir : dir? = none) :
    t.documents = [input] := by
  obtain ⟨groups, more, hselects, rfl⟩ := resolve_eq_ok_iff.mp h
  subst hinputs hdir
  obtain rfl := Except.ok.inj hselects.directory
  obtain ⟨files, others, hfiles, hothers, rfl⟩ := List.forall₂_cons_left_iff.mp hselects.inputs
  obtain rfl := List.forall₂_nil_left_iff.mp hothers
  cases hfiles with
  | path => rfl
  | pattern hpattern => exact absurd (hplain.symm.trans hpattern) Bool.false_ne_true

end Directory

end FenceLint.Targets
