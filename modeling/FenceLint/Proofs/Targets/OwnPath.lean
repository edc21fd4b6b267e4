import FenceLint.Proofs.Glob.Pattern
import FenceLint.Proofs.Targets.Expansion

/-!
A file that is asked for by its own path. Whether an input is a pattern is told by its characters,
before the disk is looked at. An input without such characters stands for itself; any other is held
against names, and stands for itself, among other paths, if its parts match themselves and lead
somewhere part by part, unless a directory that the search comes to cannot be listed
(`expand_own_path`). Names that do not match themselves exist, so that the files of these names can
be left out, and so do directories that cannot be listed (`expand_unlike`).
-/

set_option autoImplicit false

namespace FenceLint.Targets

open Glob (MatchesItself)

variable {disk : Disk} {input : String} {place : List String}

/-- Dots and then an empty part: a search that is still where it started has no name to go on. -/
def EmptyBehindDots (parts : List String) : Prop :=
  ∃ dots behind, parts = List.replicate (dots + 1) "." ++ "" :: behind

/-- A path leads to a regular file, which is at this place. -/
def LeadsToFile (disk : Disk) (path : String) (place : List String) : Prop :=
  disk.LeadsTo path place ∧
    ∃ text? executable, disk.root.descend place = some (.file text? executable)

theorem LeadsToFile.isFile (h : LeadsToFile disk input place) : disk.isFile input = true := by
  obtain ⟨hinput, text?, executable, hfile⟩ := h
  exact Disk.isFile_iff.mpr
    ⟨text?, executable, Disk.find_eq_ok_iff.mpr ⟨place, hinput, hfile⟩⟩

/-- A pattern that matches itself is searched for along the path. -/
theorem exists_hit (h : LeadsToFile disk input place)
    (hparts : MatchesItself (Path.parts input)) (hsolid : ¬EmptyBehindDots (Path.parts input)) :
    ∃ p, Glob.Pattern.parse input = .ok p ∧ ∃ found ∈ p.met disk, Glob.Hits disk place found := by
  obtain ⟨⟨left, harrives⟩, text?, executable, hfile⟩ := h
  have hplace : (disk.root.descend place).isSome := by rw [hfile]; rfl
  have hend : Path.endsWithSlash input = false :=
    harrives.not_endsWithSlash (by rw [List.reverse_reverse, hfile]) fun _ ↦ Node.noConfusion
  obtain ⟨cs, hparse, hfollows⟩ := hparts.parse harrives.ne_empty hend
  refine ⟨_, hparse, ?_⟩
  cases habsolute : Path.isAbsolute input with
  | true =>
    obtain ⟨below, -, hbelow⟩ := Path.exists_of_isAbsolute habsolute
    rw [habsolute, if_pos rfl] at hfollows
    refine hfollows.exists_mem_met ?_ rfl (.of_absolute harrives habsolute) hplace
    rw [hbelow]
    exact Path.parts_ne_nil below
  | false =>
    rw [habsolute, if_neg Bool.false_ne_true] at hfollows
    refine hfollows.exists_mem_met (Path.parts_ne_nil input) rfl
      (.of_relative harrives habsolute ?_) hplace
    rintro (_ | dots) behind hinput
    · exact Path.parts_ne_empty_cons harrives.ne_empty habsolute behind hinput
    · exact hsolid ⟨dots, behind, hinput⟩

/-- Text without brackets and without two stars in a row matches itself part by part. -/
theorem matchesItself_of_not_mem (hbracket : '[' ∉ input.toList)
    (hstars : ¬['*', '*'] <:+: input.toList) : MatchesItself (Path.parts input) := by
  refine .of_fitsItself fun part hpart ↦ Glob.fitsItself_of_not_mem ?_ ?_
  · exact fun hmem ↦ hbracket (Path.mem_of_mem_parts hpart hmem)
  · exact fun hrow ↦ hstars (hrow.trans (Path.infix_of_mem_parts hpart))

/-- What a search comes to is a path that leads to the place, if it comes to its end, and otherwise
it fails with a directory that cannot be listed. -/
theorem paths_of_hit {p : Glob.Pattern} (h : ∃ found ∈ p.met disk, Glob.Hits disk place found) :
    (∃ paths, p.paths disk = .ok paths ∧ ∃ path ∈ paths, disk.LeadsTo path place) ∨
      ∃ unlisted, p.paths disk = .error unlisted ∧
        disk.list unlisted.dir = .error unlisted.fault := by
  cases hpaths : p.paths disk with
  | error unlisted => exact .inr ⟨unlisted, rfl, Glob.list_of_paths_eq_error hpaths⟩
  | ok paths =>
    obtain ⟨found, hfound, hhits⟩ := h
    rw [Disk.mapM_id_eq_ok_iff.mp hpaths] at hfound
    obtain ⟨path, hpath, rfl⟩ := List.mem_map.mp hfound
    exact .inl ⟨paths, rfl, path, hpath, hhits⟩

/-- A file is found by its own path, if that is not taken for a pattern or is one that matches
itself; all patterns do that have no brackets and no two stars in a row. Only a directory that
cannot be listed keeps such a pattern from its file, and the error names it. -/
theorem expand_own_path (h : LeadsToFile disk input place) :
    (isPattern input = false → expand disk [input] = .ok [input]) ∧
      (isPattern input = true → MatchesItself (Path.parts input) →
        ¬EmptyBehindDots (Path.parts input) →
          (∃ files, expand disk [input] = .ok files ∧
            ∃ path ∈ files, LeadsToFile disk path place) ∨
          ∃ unlisted : Disk.Unlisted, disk.list unlisted.dir = .error unlisted.fault ∧
            expand disk [input] = .error (.unsearchable input unlisted.dir unlisted.fault)) ∧
      ('[' ∉ input.toList → ¬['*', '*'] <:+: input.toList → MatchesItself (Path.parts input)) := by
  refine ⟨fun hpattern ↦ ?_, fun hpattern hparts hsolid ↦ ?_, matchesItself_of_not_mem⟩
  · obtain ⟨text?, executable, hfind⟩ := Disk.isFile_iff.mp h.isFile
    have hexists : disk.exists? input = true := by
      rw [Disk.exists?, hfind]
      rfl
    rw [expand_singleton, expandInput, hpattern, if_neg Bool.false_ne_true, hexists, if_pos rfl]
  · obtain ⟨p, hparse, hhit⟩ := exists_hit h hparts hsolid
    simp only [expand_singleton]
    obtain ⟨paths, hsearch, path, hpath, hplace⟩ | ⟨unlisted, hsearch, hlist⟩ := paths_of_hit hhit
    · have hsame : LeadsToFile disk path place := ⟨hplace, h.2⟩
      have hstands : StandsFor disk input (paths.filter disk.isFile) :=
        .pattern hpattern hparse hsearch ⟨path, hpath, hsame.isFile⟩
      exact .inl ⟨_, hstands.expandInput_eq, path,
        List.mem_filter.mpr ⟨hpath, hsame.isFile⟩, hsame⟩
    · have hrefused : Refused disk input (.unsearchable input unlisted.dir unlisted.fault) :=
        .unsearchable hpattern hparse hsearch
      exact .inr ⟨unlisted, hlist, hrefused.expandInput_eq⟩

/-- A disk with a file in a directory whose name is two stars. -/
def starsDisk : Disk :=
  .unguarded
    (.folder [("**", .folder [("q1.md", .file none false), ("q?.md", .file none false)])]) []

section Stars

theorem parts_stars : Path.parts "**/q?.md" = ["**", "q?.md"] := by decide

theorem starsDisk_leadsToFile : LeadsToFile starsDisk "**/q?.md" ["**", "q?.md"] := by
  refine ⟨⟨Disk.linkLimit, by decide, by decide, by decide, ?_⟩, none, false, rfl⟩
  rw [parts_stars]
  exact .enter ⟨rfl, rfl⟩ ⟨by decide, by decide, by decide⟩ rfl (fun _ ↦ Node.noConfusion)
    (.enter ⟨rfl, rfl⟩ ⟨by decide, by decide, by decide⟩ rfl (fun _ ↦ Node.noConfusion) (.done _))

theorem starsDisk_list_here : starsDisk.list Glob.here =
    .ok [("**", .folder [("q1.md", .file none false), ("q?.md", .file none false)])] := by
  have harrives : starsDisk.Arrives Glob.here ⟨Disk.linkLimit, []⟩ :=
    ⟨by decide, by decide, by decide, .stay rfl rfl (.inr rfl) (.done _)⟩
  exact Disk.list_unguarded (harrives.find_eq rfl)

theorem starsDisk_list_stars :
    starsDisk.list "**" = .ok [("q1.md", .file none false), ("q?.md", .file none false)] := by
  have harrives : starsDisk.Arrives "**" ⟨Disk.linkLimit, ["**"]⟩ :=
    ⟨by decide, by decide, by decide,
      .enter ⟨rfl, rfl⟩ ⟨by decide, by decide, by decide⟩ rfl (fun _ ↦ Node.noConfusion) (.done _)⟩
  exact Disk.list_unguarded (harrives.find_eq rfl)

/-- The search goes through the two directories, which can be listed. -/
theorem starsDisk_paths (p : Glob.Pattern) (h : Glob.Pattern.parse "**/q?.md" = .ok p) :
    ∃ paths, p.paths starsDisk = .ok paths := by
  have hparse : Glob.Pattern.parse "**/q?.md" = .ok ⟨false, [.deep,
      .fitting [.char 'q', .anyChar, .char '.', .char 'm', .char 'd']], false⟩ := by
    simp [Glob.Pattern.parse, Glob.tokens, Glob.componentsOf, Text.pieces, Path.isAbsolute,
      Path.endsWithSlash, Glob.Component.ofTokens, Glob.literal?, bind, Except.bind, pure,
      Except.pure, Except.map]
  obtain rfl := Except.ok.inj (h.symm.trans hparse)
  have hfolder : starsDisk.isFolder Glob.here = true := by
    rw [Disk.isFolder, Disk.find_of_list starsDisk_list_here]
  have hbelow : Glob.below Glob.here "**" = "**" := if_pos (by decide)
  have hsort : [("q1.md", Node.file none false), ("q?.md", .file none false)].mergeSort
      (fun a b ↦ decide (a.1 ≤ b.1)) = [("q1.md", .file none false), ("q?.md", .file none false)] :=
    List.mergeSort_of_pairwise (by simp)
  refine ⟨[Glob.below "**" "q1.md", Glob.below "**" "q?.md"], Disk.mapM_id_eq_ok_iff.mpr ?_⟩
  simp [Glob.Pattern.met, Glob.Pattern.start, Glob.pending, hfolder, starsDisk_list_here,
    starsDisk_list_stars, hbelow, hsort, Glob.lookAt, Glob.search, Glob.depthLimit, Disk.pathLimit,
    Glob.asksSpecial, Glob.showsFolder, Glob.skipDeep, Glob.against, Glob.Component.fitsName,
    Glob.fits, Glob.Token.accepts]

theorem expand_own_path_stars :
    LeadsToFile starsDisk "**/q?.md" ["**", "q?.md"] ∧
      ∃ files, expand starsDisk ["**/q?.md"] = .ok files ∧
        ∃ path ∈ files, LeadsToFile starsDisk path ["**", "q?.md"] := by
  have hparts : MatchesItself (Path.parts "**/q?.md") := by
    rw [parts_stars]
    exact .deep ⟨by decide, by decide, by decide, by decide⟩
      (.fit (Glob.fitsItself_of_not_mem (by decide) (by decide)) .nil)
  have hsolid : ¬EmptyBehindDots (Path.parts "**/q?.md") := by
    rintro ⟨dots, behind, hdots⟩
    rw [parts_stars] at hdots
    exact absurd (List.cons.inj hdots).1 (by decide)
  refine ⟨starsDisk_leadsToFile, ?_⟩
  obtain hfiles | ⟨unlisted, -, herror⟩ :=
    (expand_own_path starsDisk_leadsToFile).2.1 (by decide) hparts hsolid
  · exact hfiles
  · rw [expand_singleton, expandInput_eq_error_iff] at herror
    generalize hunlisted : Error.unsearchable _ _ _ = e at herror
    cases herror with
    | missing => exact nomatch hunlisted
    | malformed => exact nomatch hunlisted
    | unmatched => exact nomatch hunlisted
    | unsearchable hpattern hparse hsearch =>
      obtain ⟨paths, hpaths⟩ := starsDisk_paths _ hparse
      exact nomatch hsearch.symm.trans hpaths

end Stars

/-- A disk with one file, in the working directory. -/
def loneDisk (name : String) : Disk := .unguarded (.folder [(name, .file none false)]) []

section Lone

variable {name : String}

theorem loneDisk_leadsTo (hname : Path.IsName name) (hnul : '\x00' ∉ name.toList)
    (hsize : name.utf8ByteSize ≤ Disk.nameLimit) : (loneDisk name).LeadsTo name [name] := by
  have hcounts : Path.counts name = true := by simp [Path.counts, hname.ne_empty, hname.ne_here]
  have hlookup : [(name, Node.file none false)].lookup name = some (.file none false) := by
    rw [List.lookup_cons, beq_self_eq_true]
  refine ⟨Disk.linkLimit, hname.ne_empty, hnul, hsize.trans (by decide), ?_⟩
  rw [Path.parts_of_not_mem hname.slash_not_mem, Disk.origin,
    Path.isAbsolute_of_not_mem hname.slash_not_mem]
  exact .enter ⟨rfl, rfl⟩ ⟨hcounts, hname.ne_above, hsize⟩ hlookup (fun _ ↦ Node.noConfusion)
    (.done _)

theorem loneDisk_leadsToFile (hname : Path.IsName name) (hnul : '\x00' ∉ name.toList)
    (hsize : name.utf8ByteSize ≤ Disk.nameLimit) :
    LeadsToFile (loneDisk name) name [name] := by
  refine ⟨loneDisk_leadsTo hname hnul hsize, none, false, ?_⟩
  simp [loneDisk, Disk.unguarded, Node.descend, Node.child?, Node.entries]

theorem loneDisk_find_here :
    (loneDisk name).find Glob.here = .ok (.folder [(name, .file none false)]) := by
  have harrives : (loneDisk name).Arrives Glob.here ⟨Disk.linkLimit, []⟩ :=
    ⟨by decide, by decide, by decide, .stay rfl rfl (.inr rfl) (.done _)⟩
  exact harrives.find_eq rfl

theorem loneDisk_isFolder_here : (loneDisk name).isFolder Glob.here = true := by
  rw [Disk.isFolder, loneDisk_find_here]

theorem pending_loneDisk {c : Glob.Component} (hc : ∀ literal, c ≠ .literal literal)
    (hspecial : Glob.asksSpecial c = false) :
    Glob.pending (loneDisk name) Glob.here true [c] = [.look name name false [c]] := by
  have hlist : (loneDisk name).list Glob.here = .ok [(name, .file none false)] :=
    Disk.list_unguarded loneDisk_find_here
  have hhere : Glob.below Glob.here name = name := if_pos (by decide)
  rw [Glob.pending_held hc, hspecial, hlist]
  simp [Glob.lookAt, Glob.showsFolder, hhere]

end Lone

/-- A pattern that nothing fits matches nothing. -/
theorem expand_eq_noMatches {p : Glob.Pattern} (hpattern : isPattern input = true)
    (hparse : Glob.Pattern.parse input = .ok p) (hmet : p.met disk = []) :
    expand disk [input] = .error (.noMatches input) := by
  have hsearch : p.paths disk = .ok [] := by
    rw [Glob.Pattern.paths, hmet]
    rfl
  rw [expand_singleton, expandInput_eq_error_iff]
  exact .unmatched hpattern hparse hsearch fun path hpath ↦ absurd hpath List.not_mem_nil

/-- The one character that a class stands for is not the class itself. -/
theorem expand_class : expand (loneDisk "a[b].md") ["a[b].md"] = .error (.noMatches "a[b].md") := by
  have hreads : Glob.Reads true "a[b].md".toList
      [.char 'a', .oneOf [⟨'b', 'b'⟩], .char '.', .char 'm', .char 'd'] :=
    .char (by decide) (.ofClass rfl (.char (by decide) (.char (by decide) (.char (by decide)
      (.nil _)))))
  refine expand_eq_noMatches (by decide)
    (Glob.parse_of_not_mem (by decide) (by decide) (Glob.tokens_eq_ok_iff.mpr hreads)) ?_
  have hcomponent : Glob.Component.ofTokens
      [.char 'a', .oneOf [⟨'b', 'b'⟩], .char '.', .char 'm', .char 'd'] =
        .fitting [.char 'a', .oneOf [⟨'b', 'b'⟩], .char '.', .char 'm', .char 'd'] := rfl
  rw [hcomponent, Glob.Pattern.met, if_neg (by decide), Glob.Pattern.start,
    if_neg Bool.false_ne_true, loneDisk_isFolder_here,
    pending_loneDisk (fun _ ↦ Glob.Component.noConfusion) rfl]
  simp [Glob.depthLimit, Glob.search, Glob.against, Glob.Component.fitsName, Glob.fits]

/-- Two stars stand for directories. -/
theorem expand_stars : expand (loneDisk "**") ["**"] = .error (.noMatches "**") := by
  refine expand_eq_noMatches (by decide)
    (Glob.parse_of_not_mem (by decide) (by decide) Glob.tokens_stars) ?_
  have hcomponent : Glob.Component.ofTokens [.deep] = .deep := rfl
  rw [hcomponent, Glob.Pattern.met, if_neg (by decide), Glob.Pattern.start,
    if_neg Bool.false_ne_true, loneDisk_isFolder_here,
    pending_loneDisk (fun _ ↦ Glob.Component.noConfusion) rfl]
  simp [Glob.depthLimit, Glob.search, Glob.skipDeep]

/-- Two stars next to other characters are a mistake. -/
theorem expand_joined_stars :
    ∃ text, expand (loneDisk "a**b.md") ["a**b.md"] = .error (.usage text) := by
  have hpattern : isPattern "a**b.md" = true := by decide
  rw [expand_singleton, expandInput, if_pos hpattern]
  simp [matching, Glob.Pattern.parse, Glob.tokens, bind, Except.bind]

/-- A name alone cannot be empty. -/
theorem expand_dots :
    expand (loneDisk "q?.md") [".//q?.md"] = .error (.noMatches ".//q?.md") := by
  have hparse : Glob.Pattern.parse ".//q?.md" = .ok ⟨false, [.literal ".", .literal "",
      .fitting [.char 'q', .anyChar, .char '.', .char 'm', .char 'd']], false⟩ := by
    simp [Glob.Pattern.parse, Glob.tokens, Glob.componentsOf, Text.pieces, Path.isAbsolute,
      Path.endsWithSlash, Glob.Component.ofTokens, Glob.literal?, bind, Except.bind, pure,
      Except.pure, Except.map]
  refine expand_eq_noMatches (by decide) hparse ?_
  have hdot : Glob.below Glob.here "." = Glob.here := rfl
  have hempty : Glob.below Glob.here "" = "" := rfl
  have hexists : (loneDisk "q?.md").exists? "" = false := rfl
  have hlink : (loneDisk "q?.md").isLink "" = false := rfl
  simp [Glob.Pattern.met, Glob.Pattern.start, Glob.pending, Glob.specialNames,
    loneDisk_isFolder_here, hdot, hempty, hexists, hlink]

/-- A disk with a file in a directory that can be passed but not listed. -/
def shutDisk : Disk where
  root := .folder [("d", .folder [("a?b.md", .file none false)])]
  workingDir := []
  sealed? place := if place = ["d"] then some .notPermitted else none
  barred? _ := none

theorem shutDisk_leadsToFile : LeadsToFile shutDisk "d/a?b.md" ["d", "a?b.md"] := by
  have hparts : Path.parts "d/a?b.md" = ["d", "a?b.md"] := by decide
  refine ⟨⟨Disk.linkLimit, by decide, by decide, by decide, ?_⟩, none, false, rfl⟩
  rw [hparts]
  exact .enter ⟨rfl, rfl⟩ ⟨by decide, by decide, by decide⟩ rfl (fun _ ↦ Node.noConfusion)
    (.enter ⟨rfl, rfl⟩ ⟨by decide, by decide, by decide⟩ rfl (fun _ ↦ Node.noConfusion) (.done _))

/-- A pattern needs the directory listed that its file is in. -/
theorem expand_shut :
    expand shutDisk ["d/a?b.md"] = .error (.unsearchable "d/a?b.md" "d" .notPermitted) := by
  have hparse : Glob.Pattern.parse "d/a?b.md" = .ok ⟨false, [.literal "d",
      .fitting [.char 'a', .anyChar, .char 'b', .char '.', .char 'm', .char 'd']], false⟩ := by
    simp [Glob.Pattern.parse, Glob.tokens, Glob.componentsOf, Text.pieces, Path.isAbsolute,
      Path.endsWithSlash, Glob.Component.ofTokens, Glob.literal?, bind, Except.bind, pure,
      Except.pure, Except.map]
  have hplace : shutDisk.locate "d" = .ok ["d"] := by
    refine Disk.locate_eq_ok_iff.mpr ⟨Disk.linkLimit, by decide, by decide, by decide, ?_⟩
    have hparts : Path.parts "d" = ["d"] := by decide
    rw [hparts]
    exact .enter ⟨rfl, rfl⟩ ⟨by decide, by decide, by decide⟩ rfl (fun _ ↦ Node.noConfusion)
      (.done _)
  have hfind : shutDisk.find "d" = .ok (.folder [("a?b.md", .file none false)]) := by
    rw [Disk.find, hplace]
    rfl
  have hexists : shutDisk.exists? "d" = true := by rw [Disk.exists?, hfind]; rfl
  have hfolder : shutDisk.isFolder "d" = true := by rw [Disk.isFolder, hfind]
  have hlist : shutDisk.list "d" = .error .notPermitted := by
    rw [Disk.list, Disk.read, hplace]
    rfl
  have hbelow : Glob.below Glob.here "d" = "d" := if_pos (by decide)
  rw [expand_singleton, expandInput_eq_error_iff]
  refine Refused.unsearchable (by decide) hparse (?_ : _ = Except.error ⟨"d", .notPermitted⟩)
  simp [Glob.Pattern.paths, Glob.Pattern.met, Glob.Pattern.start, Glob.pending, Glob.specialNames,
    hbelow, hexists, hfolder, hlist, Glob.search, Glob.depthLimit]

/-- Files that are left out when they are asked for by their own paths: of a class, of two stars
alone and next to other characters, of a name alone that is empty, and in a directory that cannot be
listed. -/
theorem expand_unlike :
    (LeadsToFile (loneDisk "a[b].md") "a[b].md" ["a[b].md"] ∧
      expand (loneDisk "a[b].md") ["a[b].md"] = .error (.noMatches "a[b].md")) ∧
    (LeadsToFile (loneDisk "**") "**" ["**"] ∧
      expand (loneDisk "**") ["**"] = .error (.noMatches "**")) ∧
    (LeadsToFile (loneDisk "a**b.md") "a**b.md" ["a**b.md"] ∧
      ∃ text, expand (loneDisk "a**b.md") ["a**b.md"] = .error (.usage text)) ∧
    (LeadsToFile (loneDisk "q?.md") ".//q?.md" ["q?.md"] ∧
      expand (loneDisk "q?.md") [".//q?.md"] = .error (.noMatches ".//q?.md")) ∧
    LeadsToFile shutDisk "d/a?b.md" ["d", "a?b.md"] ∧
      expand shutDisk ["d/a?b.md"] = .error (.unsearchable "d/a?b.md" "d" .notPermitted) := by
  have hclass : Path.IsName "a[b].md" := ⟨by decide, by decide, by decide, by decide⟩
  have hjoined : Path.IsName "a**b.md" := ⟨by decide, by decide, by decide, by decide⟩
  refine ⟨⟨loneDisk_leadsToFile hclass (by decide) (by decide), expand_class⟩,
    ⟨loneDisk_leadsToFile Glob.isName_stars (by decide) (by decide), expand_stars⟩,
    ⟨loneDisk_leadsToFile hjoined (by decide) (by decide), expand_joined_stars⟩,
    ⟨?_, expand_dots⟩, shutDisk_leadsToFile, expand_shut⟩
  have hparts : Path.parts ".//q?.md" = [".", "", "q?.md"] := by decide
  refine ⟨⟨Disk.linkLimit, by decide, by decide, by decide, ?_⟩, none, false, rfl⟩
  rw [hparts]
  exact .stay rfl rfl (.inr rfl) (.stay rfl rfl (.inl rfl)
    (.enter ⟨rfl, rfl⟩ ⟨by decide, by decide, by decide⟩ rfl (fun _ ↦ Node.noConfusion)
      (.done _)))

end FenceLint.Targets
