import FenceLint.Proofs.Artifact.Folder
import FenceLint.Proofs.Checker.Step
import FenceLint.Proofs.Checker.Visits
import FenceLint.Proofs.Report.Totals

/-!
The work of one parser over a run. Once a checker can get a parser, checking blocks is three things
side by side that do not meddle with one another: each block is filed, each block is validated, and
what came of both is put into the report under the block.
-/

set_option autoImplicit false

namespace FenceLint

namespace Act

variable {σ α β : Type} (f : α → Act σ β) (s : σ)

theorem run_mapM_cons (x : α) (xs : List α) :
    let first := (f x).run s
    let more := (xs.mapM f).run first.state
    (((x :: xs).mapM f).run s).value = first.value :: more.value ∧
      (((x :: xs).mapM f).run s).state = more.state := by
  rw [List.mapM_cons]
  exact ⟨rfl, rfl⟩

theorem run_mapM_append (xs ys : List α) :
    let first := (xs.mapM f).run s
    let more := (ys.mapM f).run first.state
    (((xs ++ ys).mapM f).run s).value = first.value ++ more.value ∧
      (((xs ++ ys).mapM f).run s).state = more.state := by
  rw [List.mapM_append]
  exact ⟨rfl, rfl⟩

end Act

variable {ω π : Type}

namespace Scene

/-- A parser is set up and finds the world as it is. -/
structure Served (s : Scene ω π) (p : π) (w : ω) : Prop where
  error : s.checker.setupError? = none
  parser : s.checker.parser? = some p
  world : s.world = w

/-- The next block gets the parser `p` and meets it in the world `w`: it is set up, or nothing is
and the supply gives it. -/
inductive Offers (s : Scene ω π) (p : π) (w : ω) : Prop
  | served (h : s.Served p w)
  | drawn (herror : s.checker.setupError? = none) (hparser : s.checker.parser? = none)
      (hvalue : (draw.run s).value = .ok p) (hworld : (draw.run s).state.world = w)

/-- Two scenes whose checkers have the same settings. -/
structure Alike (s t : Scene ω π) : Prop where
  language : t.checker.language = s.checker.language
  limit : t.checker.limit = s.checker.limit
  artifacts : t.checker.artifacts = s.checker.artifacts
  documents : t.checker.documents = s.checker.documents

theorem Alike.refl (s : Scene ω π) : s.Alike s := ⟨rfl, rfl, rfl, rfl⟩

theorem Alike.trans {s t u : Scene ω π} (h : s.Alike t) (h' : t.Alike u) : s.Alike u where
  language := h'.language.trans h.language
  limit := h'.limit.trans h.limit
  artifacts := h'.artifacts.trans h.artifacts
  documents := h'.documents.trans h.documents

/-- Asking the supply touches nothing but the supply and the world. -/
theorem draw_frame (s : Scene ω π) : ∃ supply,
    (draw.run s).state =
      ⟨{ s.checker with supply }, s.area, (draw.run s).state.world⟩ := by
  rcases s with ⟨⟨language, limit, supply, parser?, setupError?, artifacts, documents⟩, area, world⟩
  cases supply with
  | factory make => exact ⟨.factory make, rfl⟩
  | single parser? =>
    cases parser? with
    | none => exact ⟨.single none, rfl⟩
    | some p => exact ⟨.single none, rfl⟩

/-- What the supply gives depends on the supply and the world alone. -/
theorem draw_congr {s t : Scene ω π} (hsupply : t.checker.supply = s.checker.supply)
    (hworld : t.world = s.world) :
    (draw.run t).value = (draw.run s).value ∧
      (draw.run t).state.world = (draw.run s).state.world := by
  simp only [draw, Act.run_bind, Act.run_get, hsupply]
  cases s.checker.supply with
  | factory make =>
    change (make.run t.world).value = (make.run s.world).value ∧
      (make.run t.world).state = (make.run s.world).state
    rw [hworld]
    exact ⟨rfl, rfl⟩
  | single parser? =>
    cases parser? with
    | none => exact ⟨rfl, hworld⟩
    | some p => exact ⟨rfl, hworld⟩

section

variable {s t : Scene ω π} {p : π} {w : ω}

/-- What is on offer does not depend on the settings. -/
theorem Offers.congr (h : s.Offers p w) (herror : t.checker.setupError? = s.checker.setupError?)
    (hparser : t.checker.parser? = s.checker.parser?)
    (hsupply : t.checker.supply = s.checker.supply) (hworld : t.world = s.world) :
    t.Offers p w := by
  cases h with
  | served h => exact .served ⟨herror.trans h.error, hparser.trans h.parser, hworld.trans h.world⟩
  | drawn hnoError hnoParser hvalue hdrawn =>
    obtain ⟨hsame, hstate⟩ := draw_congr hsupply hworld
    exact .drawn (herror.trans hnoError) (hparser.trans hnoParser) (hsame.trans hvalue)
      (hstate.trans hdrawn)

/-- The parser on offer is the one that a block gets, and it is set up from then on. -/
theorem Offers.found (h : s.Offers p w) :
    (parser.run s).value = .ok p ∧ ∃ supply,
      (parser.run s).state = ⟨{ s.checker with supply, parser? := some p }, s.area, w⟩ := by
  cases h with
  | served h =>
    obtain ⟨hvalue, hstate⟩ := parser_ready h.error h.parser
    refine ⟨hvalue, s.checker.supply, ?_⟩
    rw [hstate, ← h.parser, ← h.world]
  | drawn herror hparser hvalue hworld =>
    obtain ⟨supply, hdrawn⟩ := draw_frame s
    rw [hworld] at hdrawn
    refine ⟨?_, supply, ?_⟩
    · simp [parser, herror, hparser, hvalue]
    · simp [parser, herror, hparser, hvalue, setParser, hdrawn]

/-- A block that gets a parser has been offered it. -/
theorem offers_of_found (h : (parser.run s).value = .ok p) :
    s.Offers p (parser.run s).state.world := by
  cases herror : s.checker.setupError? with
  | some message =>
    rw [(parser_failed herror).1] at h
    cases h
  | none =>
    cases hparser : s.checker.parser? with
    | some q =>
      obtain ⟨hvalue, hstate⟩ := parser_ready herror hparser
      obtain rfl : q = p := Except.ok.inj (hvalue.symm.trans h)
      exact .served ⟨herror, hparser, by rw [hstate]⟩
    | none =>
      cases hdraw : (draw.run s).value with
      | ok q =>
        have hoffers : s.Offers q (draw.run s).state.world := .drawn herror hparser hdraw rfl
        obtain ⟨hvalue, supply, hstate⟩ := hoffers.found
        obtain rfl : q = p := Except.ok.inj (hvalue.symm.trans h)
        rw [hstate]
        exact hoffers
      | error e =>
        have hfails : (parser.run s).value = .error e := by
          cases e <;> simp [parser, herror, hparser, hdraw]
        cases hfails.symm.trans h

end

/-- Keeping a block is filing it, with a word on what went wrong. -/
theorem run_keepBlock (document : Nat) (source : String) (block : Block) (s : Scene ω π) :
    let filed := (Artifact.fileBlock s.checker.artifacts document source block).run s.area
    ((keepBlock document source block).run s).value = filed.value ∧
      ((keepBlock document source block).run s).state = { s with area := filed.state } := by
  simp only [keepBlock, Artifact.fileBlock, Act.run_bind, Act.run_get]
  cases s.checker.artifacts with
  | none => exact ⟨rfl, rfl⟩
  | some dir =>
    simp only [onArea, Act.run_bind, Act.run_focus, Act.run_map]
    cases ((dir.writeBlock document source block).run s.area).value <;> exact ⟨rfl, rfl⟩

section

variable (b : Backend ω π) (document : Nat) (source : String) (s : Scene ω π)

/-- A block that finds a parser is validated with it. -/
theorem run_checkBlock {p : π} (block : Block)
    (h : (parser.run (kept document source block s)).value = .ok p) :
    let found := (parser.run (kept document source block s)).state
    let tried := (b.validate found.checker.limit block.code).run (p, found.world)
    let r := (checkBlock b document source block).run s
    r.value = .ok ⟨block, tried.value, ((keepBlock document source block).run s).value⟩ ∧
      r.state = ⟨{ found.checker with parser? := some tried.state.1 }, found.area,
        tried.state.2⟩ := by
  intro found tried r
  have hvalue : ((validate b p block.code).run found).value = tried.value := rfl
  have hstate : ((validate b p block.code).run found).state =
      ⟨{ found.checker with parser? := some tried.state.1 }, found.area, tried.state.2⟩ := rfl
  rw [← hvalue, ← hstate]
  change (parser.run ((keepBlock document source block).run s).state).value = .ok p at h
  cases hvalid : ((validate b p block.code).run found).value.isValid <;>
    constructor <;> simp_all [r, found, kept, checkBlock]

/-- A block that finds none comes to the error that it finds. -/
theorem run_checkBlock_unparsed {e : Error} (block : Block)
    (h : (parser.run (kept document source block s)).value = .error e) :
    ((checkBlock b document source block).run s).value = .error e ∧
      ((checkBlock b document source block).run s).state =
        (parser.run (kept document source block s)).state := by
  rw [kept] at h
  simp [checkBlock, kept, h]

/-- Looking for the parser leaves the settings and the place for directories alone. -/
theorem parser_frame :
    s.Alike (parser.run s).state ∧ (parser.run s).state.area = s.area := by
  cases herror : s.checker.setupError? with
  | some message =>
    rw [(parser_failed herror).2]
    exact ⟨.refl s, rfl⟩
  | none =>
    cases hparser : s.checker.parser? with
    | some p =>
      rw [(parser_ready herror hparser).2]
      exact ⟨.refl s, rfl⟩
    | none =>
      obtain ⟨supply, hdrawn⟩ := draw_frame s
      cases hdraw : (draw.run s).value with
      | ok p =>
        simp only [parser, Act.run_bind, Act.run_get, Act.run_log, herror, hparser, hdraw]
        rw [hdrawn]
        exact ⟨⟨rfl, rfl, rfl, rfl⟩, rfl⟩
      | error e =>
        cases e <;>
          simp only [parser, Act.run_bind, Act.run_get, Act.run_log, herror, hparser, hdraw] <;>
          rw [hdrawn] <;> exact ⟨⟨rfl, rfl, rfl, rfl⟩, rfl⟩

/-- Checking leaves the settings alone too. -/
theorem checkBlock_alike (block : Block) :
    s.Alike ((checkBlock b document source block).run s).state := by
  have hkept : s.Alike (kept document source block s) := by
    have hchecker := (kept_frame document source block s).1
    exact ⟨congrArg _ hchecker, congrArg _ hchecker, congrArg _ hchecker, congrArg _ hchecker⟩
  have hfound := hkept.trans (parser_frame _).1
  cases hparser : (parser.run (kept document source block s)).value with
  | error e =>
    rw [(run_checkBlock_unparsed b document source s block hparser).2]
    exact hfound
  | ok p =>
    rw [(run_checkBlock b document source s block hparser).2]
    exact ⟨hfound.language, hfound.limit, hfound.artifacts, hfound.documents⟩

theorem checkBlocks_alike (blocks : List Block) (report : Report) :
    s.Alike ((checkBlocks b document source blocks report).run s).state := by
  induction blocks generalizing s report with
  | nil => exact .refl s
  | cons block rest ih =>
    have hfirst := checkBlock_alike b document source s block
    cases hvalue : ((checkBlock b document source block).run s).value with
    | error e =>
      simp only [checkBlocks, Act.run_bind, hvalue, Act.run_pure]
      exact hfirst
    | ok checked =>
      rw [(checkBlocks_ok b document source block s rest report hvalue).2]
      exact hfirst.trans (ih _ _)

end

section

variable (b : Backend ω π) (document : Nat) (source : String) {s : Scene ω π} {p : π} {w : ω}

/-- A block that is offered a parser is filed, validated and reported. -/
theorem Offers.run_checkBlock (h : s.Offers p w) (block : Block) :
    let filed := (Artifact.fileBlock s.checker.artifacts document source block).run s.area
    let tried := (b.validate s.checker.limit block.code).run (p, w)
    let r := (checkBlock b document source block).run s
    r.value = .ok ⟨block, tried.value, filed.value⟩ ∧
      r.state.Served tried.state.1 tried.state.2 ∧ r.state.area = filed.state := by
  intro filed tried r
  obtain ⟨hname, hkept⟩ := run_keepBlock document source block s
  obtain ⟨hchecker, hworld⟩ := kept_frame document source block s
  have herror : s.checker.setupError? = none := by
    cases h with
    | served h => exact h.error
    | drawn herror => exact herror
  have hkeptOffers : (kept document source block s).Offers p w :=
    h.congr (congrArg _ hchecker) (congrArg _ hchecker) (congrArg _ hchecker) hworld
  obtain ⟨hparser, supply, hfound⟩ := hkeptOffers.found
  obtain ⟨hvalue, hstate⟩ := Scene.run_checkBlock b document source s block hparser
  have harea : (kept document source block s).area = filed.state := congrArg Scene.area hkept
  rw [hfound, hchecker, harea] at hvalue hstate
  rw [hname] at hvalue
  refine ⟨hvalue, ?_, ?_⟩
  · change ((checkBlock b document source block).run s).state.Served _ _
    rw [hstate]
    exact ⟨herror, rfl, rfl⟩
  · change ((checkBlock b document source block).run s).state.area = _
    rw [hstate]

/-- Blocks that are offered a parser are filed in order, validated in order, and reported with what
came of both. -/
theorem Offers.run_checkBlocks (h : s.Offers p w) (blocks : List Block) (report : Report) :
    let filed := (blocks.mapM (Artifact.fileBlock s.checker.artifacts document source)).run s.area
    let tried := ((blocks.map Block.code).mapM (b.validate s.checker.limit)).run (p, w)
    let r := (checkBlocks b document source blocks report).run s
    ∃ checked : List CheckedBlock,
      r.value = .ok (checked.foldl Report.push report) ∧
      checked.map CheckedBlock.block = blocks ∧
      checked.map CheckedBlock.verdict = tried.value ∧
      checked.map CheckedBlock.fileName? = filed.value ∧
      r.state.area = filed.state ∧
      (blocks = [] → r.state = s) ∧
      (blocks ≠ [] → r.state.Served tried.state.1 tried.state.2) := by
  induction blocks generalizing s p w report with
  | nil => exact ⟨[], rfl, rfl, rfl, rfl, rfl, fun _ ↦ rfl, fun hne ↦ absurd rfl hne⟩
  | cons block rest ih =>
    have halike := checkBlock_alike b document source s block
    obtain ⟨hvalue, hserved, harea⟩ := h.run_checkBlock b document source block
    obtain ⟨hsame, hstate⟩ := checkBlocks_ok b document source block s rest report hvalue
    obtain ⟨checked, hreport, hblocks, hverdicts, hnames, harea', hnone, hlast⟩ :=
      ih (.served hserved) (report.push _)
    obtain ⟨hfiled, hfolder⟩ :=
      Act.run_mapM_cons (Artifact.fileBlock s.checker.artifacts document source) s.area block rest
    obtain ⟨htried, hworked⟩ :=
      Act.run_mapM_cons (b.validate s.checker.limit) (p, w) block.code (rest.map Block.code)
    rw [halike.limit] at hverdicts hlast
    rw [halike.artifacts, harea] at hnames harea'
    refine ⟨_ :: checked, hsame.trans hreport, ?_, ?_, ?_, ?_, nofun, fun _ ↦ ?_⟩
    · exact congrArg (block :: ·) hblocks
    · rw [List.map_cons, List.map_cons, htried, hverdicts]
    · rw [List.map_cons, hfiled, hnames]
    · rw [hstate, hfolder, harea']
    · rw [hstate, List.map_cons, hworked]
      cases rest with
      | nil =>
        rw [hnone rfl]
        exact hserved
      | cons next rest => exact hlast (List.cons_ne_nil next rest)

end

end Scene

namespace Visit

variable (b : Backend ω π) (v : Visit ω π)

/-- The blocks that the visit reports on. -/
def checked : List CheckedBlock :=
  match v.result b with
  | .ok report => report.blocks
  | .error _ => []

variable {v}

/-- A visit to a text without blocks changes nothing. -/
theorem run_empty (h : v.blocks = []) :
    v.result b = .ok (.empty v.source) ∧ v.after b = v.before :=
  Scene.checkText_empty b v.source h

/-- A visit to a text with blocks counts the text and changes no setting. -/
theorem numbered_alike (h : v.blocks ≠ []) : v.before.numbered.Alike (v.after b) := by
  rw [after, (Scene.checkText_blocks b v.source h).2]
  exact Scene.checkBlocks_alike _ _ _ _ _ _

theorem settings : (v.after b).checker.language = v.before.checker.language ∧
    (v.after b).checker.limit = v.before.checker.limit ∧
    (v.after b).checker.artifacts = v.before.checker.artifacts := by
  by_cases h : v.blocks = []
  · rw [(run_empty b h).2]
    exact ⟨rfl, rfl, rfl⟩
  · have halike := numbered_alike b h
    exact ⟨halike.language, halike.limit, halike.artifacts⟩

variable {p : π} {w : ω}

/-- A visit that is offered a parser files and validates the blocks of its text, each once and in
order, and reports on them in this order. -/
theorem offered (h : v.before.Offers p w) :
    let filed := (v.blocks.mapM (Artifact.fileBlock v.before.checker.artifacts
      v.before.checker.documents v.source)).run v.before.area
    let tried := ((v.blocks.map Block.code).mapM (b.validate v.before.checker.limit)).run (p, w)
    v.result b = .ok (.ofBlocks v.source (v.checked b)) ∧
      (v.checked b).map CheckedBlock.block = v.blocks ∧
      (v.checked b).map CheckedBlock.verdict = tried.value ∧
      (v.checked b).map CheckedBlock.fileName? = filed.value ∧
      (v.after b).area = filed.state ∧
      (v.blocks ≠ [] → (v.after b).Served tried.state.1 tried.state.2) := by
  intro filed tried
  by_cases hblocks : v.blocks = []
  · obtain ⟨hresult, hafter⟩ := run_empty b hblocks
    have hchecked : v.checked b = [] := by rw [checked, hresult]; rfl
    have hfiled : filed = ⟨[], v.before.area, []⟩ := by simp only [filed, hblocks]; rfl
    have htried : tried = ⟨[], (p, w), []⟩ := by simp only [tried, hblocks]; rfl
    rw [hresult, hafter, hchecked, hfiled, htried]
    exact ⟨rfl, hblocks.symm, rfl, rfl, rfl, fun hne ↦ absurd hblocks hne⟩
  · have hnumbered : v.before.numbered.Offers p w := h.congr rfl rfl rfl rfl
    obtain ⟨hresult, hafter⟩ := Scene.checkText_blocks b v.source hblocks
    obtain ⟨checked, hreport, hmap, hverdicts, hnames, harea, -, hserved⟩ :=
      hnumbered.run_checkBlocks b v.before.checker.documents v.source v.blocks (.empty v.source)
    have hvalue : v.result b = .ok (.ofBlocks v.source checked) := hresult.trans hreport
    have hchecked : v.checked b = checked := by
      rw [Visit.checked, hvalue]
      exact Report.ofBlocks_blocks _ _
    rw [hchecked]
    refine ⟨hvalue, hmap, hverdicts, hnames, ?_, fun hne ↦ ?_⟩
    · rw [after, hafter]
      exact harea
    · rw [after, hafter]
      exact hserved hne

/-- A visit to a text with blocks is offered a parser; if it is not, its first block is filed before
that comes out, and nothing else is done. -/
theorem offered_or_refused {block : Block} {rest : List Block} (h : v.blocks = block :: rest) :
    (∃ p w, v.before.Offers p w) ∨
      ∃ e, v.result b = .error e ∧
        (v.after b).area = ((Artifact.fileBlock v.before.checker.artifacts v.before.checker.documents
          v.source block).run v.before.area).state := by
  obtain ⟨hresult, hafter⟩ :=
    Scene.checkText_blocks b v.source (h.trans_ne (List.cons_ne_nil block rest))
  change Fence.extract v.before.checker.language v.text = block :: rest at h
  rw [h] at hresult hafter
  let kept := Scene.kept v.before.checker.documents v.source block v.before.numbered
  obtain ⟨hchecker, hworld⟩ :=
    Scene.kept_frame v.before.checker.documents v.source block v.before.numbered
  cases hfound : (Scene.parser.run kept).value with
  | ok p =>
    left
    have hoffers := Scene.offers_of_found hfound
    exact ⟨p, _, hoffers.congr (congrArg Checker.setupError? hchecker).symm
      (congrArg Checker.parser? hchecker).symm (congrArg Checker.supply hchecker).symm hworld.symm⟩
  | error e =>
    right
    obtain ⟨hlast, hend⟩ := Scene.checkBlocks_unparsed b v.before.checker.documents v.source block
      v.before.numbered rest (.empty v.source) hfound
    have hfiled := (Scene.run_keepBlock v.before.checker.documents v.source block
      v.before.numbered).2
    refine ⟨e, hresult.trans hlast, ?_⟩
    rw [after, hafter, hend, (Scene.parser_frame kept).2]
    exact congrArg Scene.area hfiled

/-- After a visit the parser is on offer as the visit leaves it. -/
theorem offers_after (h : v.before.Offers p w) :
    let tried := ((v.blocks.map Block.code).mapM (b.validate v.before.checker.limit)).run (p, w)
    (v.after b).Offers tried.state.1 tried.state.2 := by
  intro tried
  by_cases hblocks : v.blocks = []
  · have htried : tried = ⟨[], (p, w), []⟩ := by simp only [tried, hblocks]; rfl
    rw [(run_empty b hblocks).2, htried]
    exact h
  · exact .served ((v.offered b h).2.2.2.2.2 hblocks)

end Visit

section

variable {b : Backend ω π} {s t : Scene ω π} {vs : List (Visit ω π)} {p : π} {w : ω}

/-- Along a run that is offered a parser, every text meets the same settings and some parser. -/
theorem Follow.offers (h : Follow b s vs t) (hoffers : s.Offers p w) :
    ∀ v ∈ vs, v.before.checker.language = s.checker.language ∧
      v.before.checker.limit = s.checker.limit ∧ ∃ p w, v.before.Offers p w := by
  let P (u : Scene ω π) : Prop := u.checker.language = s.checker.language ∧
    u.checker.limit = s.checker.limit ∧ ∃ p w, u.Offers p w
  have hstep : ∀ v : Visit ω π, P v.before → P (v.after b) := by
    rintro v ⟨hlanguage, hlimit, p, w, hmet⟩
    obtain ⟨hlanguage', hlimit', -⟩ := v.settings b
    exact ⟨hlanguage'.trans hlanguage, hlimit'.trans hlimit, _, _, v.offers_after b hmet⟩
  intro v hv
  exact ((h.invariant hstep ⟨rfl, rfl, p, w, hoffers⟩).1 v hv).1

/-- The blocks that such a run reports on are those of its texts. -/
theorem Follow.checked (h : Follow b s vs t) (hoffers : s.Offers p w) :
    (vs.flatMap (Visit.checked b)).map CheckedBlock.block = vs.flatMap Visit.blocks := by
  rw [List.map_flatMap]
  refine List.flatMap_congr fun v hv ↦ ?_
  obtain ⟨-, -, p', w', hmet⟩ := h.offers hoffers v hv
  exact (v.offered b hmet).2.1

/-- All blocks of all texts are validated, each once, in the order of the visits and then of their
texts. -/
theorem Follow.offered (h : Follow b s vs t) (hoffers : s.Offers p w) :
    let blocks := vs.flatMap Visit.blocks
    let tried := ((blocks.map Block.code).mapM (b.validate s.checker.limit)).run (p, w)
    (vs.flatMap (Visit.checked b)).map CheckedBlock.verdict = tried.value ∧
      (blocks = [] → t = s) ∧ (blocks ≠ [] → t.Served tried.state.1 tried.state.2) := by
  induction vs generalizing s p w with
  | nil =>
    obtain rfl : s = t := h
    exact ⟨rfl, fun _ ↦ rfl, fun hne ↦ absurd rfl hne⟩
  | cons v rest ih =>
    obtain ⟨rfl, hrest⟩ := h
    obtain ⟨-, -, hverdicts, -, -, hserved⟩ := v.offered b hoffers
    obtain ⟨-, hlimit, -⟩ := v.settings b
    obtain ⟨hverdicts', hnone, hlast⟩ := ih hrest (v.offers_after b hoffers)
    rw [hlimit] at hverdicts' hlast
    obtain ⟨hvalue, hstate⟩ := Act.run_mapM_append (b.validate v.before.checker.limit) (p, w)
      (v.blocks.map Block.code) ((rest.flatMap Visit.blocks).map Block.code)
    simp only [List.flatMap_cons, List.map_append]
    refine ⟨?_, ?_, ?_⟩
    · rw [hvalue, hverdicts, hverdicts']
    · intro hempty
      obtain ⟨hfirst, hothers⟩ := List.append_eq_nil_iff.mp hempty
      exact (hnone hothers).trans (v.run_empty b hfirst).2
    · intro hne
      rw [hstate]
      by_cases hothers : rest.flatMap Visit.blocks = []
      · rw [hothers, List.append_nil] at hne
        rw [hothers, hnone hothers]
        exact hserved hne
      · exact hlast hothers

end

end FenceLint
