import FenceLint.Proofs.CommandLine.Status
import FenceLint.Proofs.Disk.Walk
import FenceLint.Proofs.Engine.Isolation

/-!
How the program ends. A run comes to an end unless a request for one of its blocks is never
answered. The exit status, what is printed and what is left behind are then three readings of one
run, and they agree: the status is that of the answer, what is printed is the report of the answer
or nothing, and the directory of block files is gone unless it is to be kept.
-/

set_option autoImplicit false

namespace FenceLint

namespace CommandLine

section

variable (site : Site) (o : Options) (area : Artifact.Area) (machine : Engine.Machine)

/-- However a run is carried out, its answer has the status of its case. -/
theorem carryOut_ends :
    Ends site o area machine ((carryOut site o).run (area, machine)).value := by
  cases hresolve : Targets.resolve site.disk o.inputs o.dir? o.recursive with
  | error e =>
    rw [(run_carryOut_unresolved site o area machine hresolve).1]
    exact .of_error (.unresolved e hresolve) e
  | ok t =>
    cases hrefusal : area.refusal? with
    | some fault =>
      rw [(run_carryOut_refused site o area machine hresolve hrefusal).1]
      exact .of_error (.refused fault hrefusal) _
    | none =>
      obtain ⟨hartifacts, -⟩ := check_spares site o t area.nextDir area.grown machine
        (Targets.documents_of_single hresolve)
      rw [(run_carryOut_made site o area machine hresolve hrefusal).1,
        (run_checkKeeping site o t area.grown machine area.nextDir hartifacts).1]
      exact check_ends machine hresolve hrefusal area.nextDir area.grown

/-- A run stalls just where it hangs. -/
theorem carryOut_stalled (hstalled : machine.stalled = false) :
    ((carryOut site o).run (area, machine)).state.2.stalled = true ↔
      Hangs site o area machine := by
  cases hresolve : Targets.resolve site.disk o.inputs o.dir? o.recursive with
  | error e =>
    rw [(run_carryOut_unresolved site o area machine hresolve).2]
    refine ⟨fun h ↦ absurd (hstalled.symm.trans h) Bool.false_ne_true, ?_⟩
    rintro ⟨t, ht, -⟩
    exact nomatch hresolve.symm.trans ht
  | ok t =>
    cases hrefusal : area.refusal? with
    | some fault =>
      rw [(run_carryOut_refused site o area machine hresolve hrefusal).2]
      refine ⟨fun h ↦ absurd (hstalled.symm.trans h) Bool.false_ne_true, ?_⟩
      rintro ⟨-, -, hnone, -⟩
      exact nomatch hrefusal.symm.trans hnone
    | none =>
      have hnamed := Targets.documents_of_single hresolve
      obtain ⟨hartifacts, -⟩ :=
        check_spares site o t area.nextDir area.grown machine hnamed
      rw [(run_carryOut_made site o area machine hresolve hrefusal).2,
        (run_checkKeeping site o t area.grown machine area.nextDir hartifacts).2.2,
        check_stalled site o t area.nextDir area.grown machine hnamed hstalled]
      constructor
      · rintro ⟨engine, hengine, hwork⟩
        exact .unanswered t hresolve hrefusal engine hengine hwork
      · rintro ⟨t', ht', -, engine, hengine, hwork⟩
        obtain rfl : t = t' := Except.ok.inj (hresolve.symm.trans ht')
        exact ⟨engine, hengine, hwork⟩

/-- Under a limit no run hangs with processes that make way for their requests. -/
theorem not_hangs (hlimit : o.timeoutMillis ≠ 0) (hstalled : machine.stalled = false)
    (hyielding : machine.Yielding) : ¬Hangs site o area machine := by
  rintro ⟨t, -, -, engine, hengine, hwork⟩
  have hflowing := (Engine.Flowing.setup hengine hstalled hyielding).run
    (.ofMillis o.timeoutMillis) ((blocksIn site o t).map Block.code)
  have hsome : o.limit = some (.ofMillis o.timeoutMillis) := by
    rw [Options.limit, if_neg hlimit]
  rw [workOn, hsome, hflowing.stalled] at hwork
  exact Bool.false_ne_true hwork

/-- However a run is carried out, no directory is touched but the one that it makes, and that one is
left only where it is to be kept. -/
theorem carryOut_folders :
    let after := ((carryOut site o).run (area, machine)).state.1
    (o.keepTemp = false → ∀ id, after.folder? id = area.folder? id) ∧
    (o.keepTemp = true → (∀ id, id ≠ area.nextDir.id → after.folder? id = area.folder? id) ∧
      ((after.folder? area.nextDir.id).isSome = true ↔
        (∃ t, Targets.resolve site.disk o.inputs o.dir? o.recursive = .ok t) ∧
          area.refusal? = none)) := by
  intro after
  have hnew : (area.folder? area.nextDir.id).isSome = false := by
    rw [Artifact.folder?_nextDir]
    rfl
  cases hresolve : Targets.resolve site.disk o.inputs o.dir? o.recursive with
  | error e =>
    have hafter : after = area :=
      congrArg Prod.fst (run_carryOut_unresolved site o area machine hresolve).2
    rw [hafter, hnew]
    refine ⟨fun _ _ ↦ rfl, fun _ ↦ ⟨fun _ _ ↦ rfl, nofun, ?_⟩⟩
    rintro ⟨⟨t, ht⟩, -⟩
    exact nomatch ht
  | ok t =>
    cases hrefusal : area.refusal? with
    | some fault =>
      have hafter : after = area :=
        congrArg Prod.fst (run_carryOut_refused site o area machine hresolve hrefusal).2
      rw [hafter, hnew]
      refine ⟨fun _ _ ↦ rfl, fun _ ↦ ⟨fun _ _ ↦ rfl, nofun, ?_⟩⟩
      rintro ⟨-, hnone⟩
      exact nomatch hnone
    | none =>
      let checked := (check site o t).run (started site o area.nextDir area.grown machine)
      obtain ⟨hartifacts, hspares⟩ := check_spares site o t area.nextDir area.grown machine
        (Targets.documents_of_single hresolve)
      have hafter : after = parted o area.nextDir checked.state.area :=
        (congrArg Prod.fst (run_carryOut_made site o area machine hresolve hrefusal).2).trans
          (run_checkKeeping site o t area.grown machine area.nextDir hartifacts).2.1
      have hothers : ∀ id, id ≠ area.nextDir.id →
          checked.state.area.folder? id = area.folder? id := by
        intro id hid
        exact (hspares.others id hid).trans
          ((Artifact.folder?_grown area id).trans (if_neg hid))
      refine ⟨fun hkeep id ↦ ?_, fun hkeep ↦ ?_⟩
      · rw [hafter, parted, hkeep]
        refine (Artifact.folder?_close _ area.nextDir id).trans ?_
        by_cases hid : id = area.nextDir.id
        · rw [if_pos hid, hid, Artifact.folder?_nextDir]
        · rw [if_neg hid]
          exact hothers id hid
      · rw [hafter, parted, if_pos hkeep]
        refine ⟨hothers, fun _ ↦ ⟨⟨t, rfl⟩, rfl⟩, fun _ ↦ ?_⟩
        refine hspares.present.trans ?_
        rw [Artifact.folder?_grown, if_pos rfl]
        rfl

end

/-- Exit status, output and cleanup agree. A run comes to an end unless it hangs, and none hangs
under a limit with processes that make way for their requests. The status is 2 just when something
keeps the run from being carried out, otherwise 1 just when some block is invalid, and otherwise 0.
An error leaves nothing printed, and any other answer is one report, as lines or as one JSON value
with a line feed, that shows the status itself. No directory that was there is touched, and the one
that was made is gone unless it is to be kept. -/
theorem execute_ending {arguments : List String} {o : Options}
    (hparse : Options.parse arguments = .ok o) (hhelp : o.help = false) (site : Site)
    (area : Artifact.Area) {machine : Engine.Machine} (hstalled : machine.stalled = false) :
    let carried := (carryOut site o).run (area, machine)
    let r := (execute site arguments).run (area, machine)
    (ending? r = none ↔ Hangs site o area machine) ∧
    (o.timeoutMillis ≠ 0 → machine.Yielding → ∃ ending, ending? r = some ending) ∧
    ∀ ending, ending? r = some ending →
      (ending.exitCode = 2 ↔ Hindered site o area machine) ∧
      (ending.exitCode = 1 ↔ ¬Hindered site o area machine ∧ Faulty site o machine) ∧
      (ending.exitCode = 0 ↔ ¬Hindered site o area machine ∧ ¬Faulty site o machine) ∧
      (∀ e, carried.value = .error e → ending.exitCode = 2 ∧ ending.output = "") ∧
      (∀ answer, carried.value = .ok answer →
        ∃ t, Targets.resolve site.disk o.inputs o.dir? o.recursive = .ok t ∧
          Printed site o t (verdictsOn site o machine t) ending.exitCode ending.output) ∧
      (o.keepTemp = false → ∀ id, r.state.1.folder? id = area.folder? id) ∧
      (o.keepTemp = true →
        (∀ id, id ≠ area.nextDir.id → r.state.1.folder? id = area.folder? id) ∧
        ((r.state.1.folder? area.nextDir.id).isSome = true ↔
          (∃ t, Targets.resolve site.disk o.inputs o.dir? o.recursive = .ok t) ∧
            area.refusal? = none)) := by
  intro carried r
  obtain ⟨hexit, houtput, hstate⟩ := run_execute site (area, machine) hparse hhelp
  have hends := carryOut_ends site o area machine
  have hhangs := carryOut_stalled site o area machine hstalled
  obtain ⟨hremoved, hkept⟩ := carryOut_folders site o area machine
  change r.value.exitCode = statusOf carried.value at hexit
  change r.value.output = printedOf carried.value at houtput
  change r.state = carried.state at hstate
  change carried.state.2.stalled = true ↔ _ at hhangs
  have hnone : ending? r = none ↔ Hangs site o area machine := by
    rw [ending?, hstate, ← hhangs]
    cases carried.state.2.stalled <;> simp
  refine ⟨hnone, fun hlimit hyielding ↦ ?_, fun ending hending ↦ ?_⟩
  · rw [← Option.ne_none_iff_exists', Ne, hnone]
    exact not_hangs site o area machine hlimit hstalled hyielding
  · obtain rfl : r.value = ending := by
      rw [ending?] at hending
      split at hending
      · exact nomatch hending
      · exact Option.some.inj hending
    obtain ⟨htwo, hone, hzero⟩ := hends.iff
    rw [hexit, houtput, hstate]
    refine ⟨htwo, hone, hzero, ?_, ?_, hremoved, hkept⟩
    · intro e he
      rw [he]
      exact ⟨rfl, rfl⟩
    · intro answer hanswer
      have hreport := hends.printed answer hanswer
      rw [hanswer]
      exact hreport

section Draft

open Engine Harness Printer

/-- The document of the draft. -/
def draftText : String := "```mermaid\nflow\n```"

/-- A site with one document, and with Node.js and the packages at its root. -/
def draftSite : Site where
  disk := .unguarded (.folder [("a.md", .file (some draftText) false),
    ("node", .file (some "") true), ("mermaid", installed), ("jsdom", installed)]) []
  environment := []
  executable? := none
  runs _ _ := none

/-- The command line that checks the document with the engine there. -/
def draftArguments : List String := ["a.md", "--node", "/node", "--node-modules", "/"]

/-- The options that it asks for. -/
def draftOptions : Options :=
  { Options.default with inputs := ["a.md"], node? := some "/node", packages? := some "/" }

/-- A machine whose processes reject every code. -/
def rejecting : Machine :=
  .fresh "" (fun _ _ ↦ .ok (obedient fun _ ↦ .rejects "unknown diagram")) fun _ ↦ .zero

theorem draftSite_find : draftSite.disk.find "a.md" = .ok (.file (some draftText) false) := by
  have : "a.md".utf8ByteSize = 4 := rfl
  simp [Disk.find, Disk.locate, Disk.partsOf, Disk.nodeAt, Disk.unguarded, draftSite, Path.parts,
    Disk.walk, Disk.origin, Path.isAbsolute, Node.descend, Node.child?, Node.entries,
    Disk.nameLimit, Disk.pathLimit, Text.pieces, bind, Except.bind, pure, Except.pure, *]

theorem draftSite_node : draftSite.disk.isFile "/node" = true := by
  have : "node".utf8ByteSize = 4 := rfl
  have : "/node".utf8ByteSize = 5 := rfl
  simp [Disk.isFile, Disk.find, Disk.locate, Disk.partsOf, Disk.nodeAt, Disk.unguarded, draftSite,
    Path.parts, Disk.walk, Disk.origin, Path.isAbsolute, Node.descend, Node.child?, Node.entries,
    Disk.nameLimit, Disk.pathLimit, Text.pieces, List.lookup_cons, bind, Except.bind, pure,
    Except.pure, *]

theorem draftSite_packages : hasPackages draftSite.disk "/" = true := by
  have : "mermaid".utf8ByteSize = 7 := rfl
  have : "jsdom".utf8ByteSize = 5 := rfl
  have : "package.json".utf8ByteSize = 12 := rfl
  have : "/mermaid/package.json".utf8ByteSize = 21 := rfl
  have : "/jsdom/package.json".utf8ByteSize = 19 := rfl
  simp [hasPackages, requiredPackages, Path.join, Path.endsWithSlash, Disk.isFile, Disk.find,
    Disk.locate, Disk.partsOf, Disk.nodeAt, Disk.unguarded, draftSite, Path.parts, Disk.walk,
    Disk.origin, Path.isAbsolute, Node.descend, Node.child?, Node.entries, Disk.nameLimit,
    Disk.pathLimit, Text.pieces, List.lookup_cons, installed, bind, Except.bind, pure, Except.pure,
    *]

theorem draft_resolve :
    Targets.resolve draftSite.disk ["a.md"] none false = .ok ⟨["a.md"], true⟩ := by
  have hplain : Targets.isPattern "a.md" = false := by decide +kernel
  have hexists : draftSite.disk.exists? "a.md" = true := by
    rw [Disk.exists?, draftSite_find]
    rfl
  simp [Targets.resolve, Targets.expand, Targets.gather, hplain, hexists, bind, Except.bind, pure,
    Except.pure]

theorem draft_readText : draftSite.disk.readText "a.md" = .ok draftText := by
  have hread : draftSite.disk.read "a.md" = .ok (.file (some draftText) false) :=
    (Disk.read_unguarded _ _ _).trans draftSite_find
  rw [Disk.readText, hread]

theorem draft_texts : readTexts draftSite.disk.readText ["a.md"] = [("a.md", draftText)] := by
  rw [readTexts, List.filterMap_cons_some (by rw [draft_readText]; rfl)]
  rfl

/-- The document holds one block. -/
theorem draft_blocks :
    blocksIn draftSite draftOptions ⟨["a.md"], true⟩ = [⟨0, 2, 3, "flow"⟩] := by
  rw [blocksIn, blocksOf, draft_texts]
  decide +kernel

theorem draft_setup : ((setup draftSite (draftOptions.engine draftSite)).run rejecting).value =
    .ok ⟨"/node", "/", .ofMillis 30000, "unknown",
      some ⟨0, readyChild (obedient fun _ ↦ .rejects "unknown diagram").reply, 0, "unknown"⟩⟩ :=
  (setup_ready draftSite_node draftSite_packages (.ofMillis 30000) rejecting
    (obedient fun _ ↦ .rejects "unknown diagram").reply rfl).1

theorem rejecting_yielding : rejecting.Yielding := by
  rintro launch n program hexec
  obtain rfl := Except.ok.inj hexec
  have hdrains (stance : Stance) (hclogged : stance ≠ .clogged) (hsilent : stance ≠ .silent) :
      (obedient fun _ ↦ .rejects "unknown diagram").Drains stance :=
    ⟨hclogged, fun h ↦ absurd h hsilent⟩
  refine ⟨hdrains .listening (by decide) (by decide), fun heard ↦ ?_⟩
  simp only [obedient, readyProgram]
  split
  · exact hdrains .listening (by decide) (by decide)
  · exact hdrains .ended (by decide) (by decide)

/-- Its block is rejected. -/
theorem draft_verdicts :
    (verdictsOn draftSite draftOptions rejecting ⟨["a.md"], true⟩).map Verdict.error? =
      [some "unknown diagram"] := by
  obtain ⟨hstandby, -⟩ := Standby.setup draft_setup
    (fun n ↦ ⟨obedient fun _ ↦ .rejects "unknown diagram", rfl, obedient_serves _ _⟩)
  have hreasons := (hstandby.run (.ofMillis 10000) ["flow"] (by decide)).1
  have herrors := congrArg (List.map (Option.map Reason.text)) hreasons
  rw [List.map_map] at herrors
  rw [verdictsOn_of_setup draft_setup, workOn, draft_blocks]
  exact herrors

theorem draft_unhindered :
    ¬Hindered draftSite draftOptions (.fresh "/tmp" fun _ ↦ "1") rejecting := by
  rw [hindered_iff rejecting draft_resolve rfl]
  rintro (⟨-, e, hsetup⟩ | hunread)
  · exact nomatch draft_setup.symm.trans hsetup
  · refine hunread (List.filter_eq_nil_iff.mpr fun path hpath ↦ ?_)
    rw [List.mem_singleton.mp hpath, draft_readText]
    exact Bool.false_ne_true

theorem draft_faulty : Faulty draftSite draftOptions rejecting := by
  obtain ⟨verdict, hverdicts, herror⟩ := List.map_eq_singleton_iff.mp draft_verdicts
  refine ⟨_, draft_resolve, verdict, hverdicts ▸ List.mem_singleton_self verdict, ?_⟩
  rw [Verdict.error?, Option.map_eq_some_iff] at herror
  obtain ⟨reason, hreason, -⟩ := herror
  rw [Verdict.isValid, hreason]
  rfl

/-- The block is invalid, so the status is 1, what is printed is the report with the entry of the
block, and no directory is left. -/
theorem execute_ending_draft :
    let r := (execute draftSite draftArguments).run (.fresh "/tmp" fun _ ↦ "1", rejecting)
    Options.parse draftArguments = .ok draftOptions ∧ draftOptions.help = false ∧
      rejecting.stalled = false ∧
      ∃ ending report c, ending? r = some ending ∧ ending.exitCode = 1 ∧
        report.sourceFile = "a.md" ∧ c.block = ⟨0, 2, 3, "flow"⟩ ∧
        c.verdict.error? = some "unknown diagram" ∧
        ending.output.toList =
          Part.print .plain [.heading report, .block report c, .totals report] ∧
        ∀ id, r.state.1.folder? id = none := by
  intro r
  have hparse : Options.parse draftArguments = .ok draftOptions := by decide +kernel
  obtain ⟨-, hends, hall⟩ := execute_ending hparse rfl draftSite (.fresh "/tmp" fun _ ↦ "1")
    (rfl : rejecting.stalled = false)
  obtain ⟨ending, hending⟩ := hends (by decide) rejecting_yielding
  obtain ⟨-, hone, -, herror, hprinted, hremoved, -⟩ := hall ending hending
  have hstatus := hone.mpr ⟨draft_unhindered, draft_faulty⟩
  refine ⟨hparse, rfl, rfl, ending, ?_⟩
  cases hvalue : ((carryOut draftSite draftOptions).run
      (.fresh "/tmp" fun _ ↦ "1", rejecting)).value with
  | error e => exact absurd (hstatus.symm.trans (herror e hvalue).1) (by decide)
  | ok answer =>
    obtain ⟨t, ht, hreport⟩ := hprinted answer hvalue
    obtain rfl := Except.ok.inj (draft_resolve.symm.trans ht)
    rw [hstatus] at hreport
    generalize hshown : (1 : Nat) = shown at hreport
    generalize houtput : ending.output = output at hreport
    cases hreport with
    | several multi output hsingle => cases hsingle
    | single report output hsingle hcovers hwritten =>
      obtain ⟨c, hblocks, hblock⟩ : ∃ c, report.blocks = [c] ∧ c.block = ⟨0, 2, 3, "flow"⟩ := by
        have hmap := hcovers.blocks.trans draft_blocks
        rw [List.flatMap_singleton] at hmap
        exact List.map_eq_singleton_iff.mp hmap
      have hsource : report.sourceFile = "a.md" := by
        have hsources := hcovers.sources.trans (congrArg (List.map Prod.fst) draft_texts)
        exact List.head_eq_of_cons_eq hsources
      have hverdict : c.verdict.error? = some "unknown diagram" := by
        have hverdicts := draft_verdicts
        rw [← hcovers.verdicts, List.flatMap_singleton, hblocks] at hverdicts
        exact List.head_eq_of_cons_eq hverdicts
      have hparts : report.shown false = [.heading report, .block report c, .totals report] := by
        have htotal : report.totalBlocks = 1 := by
          rw [(hcovers.counted report (List.mem_singleton_self report)).total, hblocks]
          rfl
        change report.layout report.blocks = _
        rw [Report.layout, htotal, hblocks]
        rfl
      have hformat : draftOptions.reportFormat true = .human := rfl
      rw [hformat] at hwritten
      cases hwritten with
      | lines output hlines =>
        exact ⟨report, c, hending, hstatus.trans hshown, hsource, hblock, hverdict,
          hparts ▸ houtput ▸ hlines, fun id ↦ hremoved rfl id⟩

end Draft

end CommandLine

end FenceLint
