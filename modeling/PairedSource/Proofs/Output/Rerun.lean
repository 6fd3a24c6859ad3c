import PairedSource.Proofs.Concurrent.Agreement
import PairedSource.Proofs.Concurrent.Writes
import PairedSource.Proofs.FileTree.Clears
import PairedSource.Proofs.Include.Reread
import PairedSource.Proofs.Output.InPlace

namespace PairedSource

open FileTree

variable {tree : FileTree} {config : RunConfig} {place location : Location} {artifact : Artifact}
  {done : List Artifact} {next cleared retry : FileTree} {generation : Generation}
  {report : RunReport} {outcome : WriteOutcome}

/-- What a run comes to, whichever of its files it had to write for that. -/
def withoutWritten : Except Error RunReport → Except Error RunReport
  | .ok report => .ok { report with outcome := {} }
  | .error (.writeFailure path kind _) => .error (.writeFailure path kind [])
  | .error e => .error e

theorem ReadsManifests.generate_eq (h : ReadsManifests tree config)
    (hagree : Agree IsManifestLocation next tree) :
    ObjectiveC.frontEnd.generate ObjectiveC.engine config next =
      ObjectiveC.frontEnd.generate ObjectiveC.engine config tree := by
  have hread : Manifest.ReadsAlike tree next config.searchPath config.input :=
    ⟨hagree.workingDirectory, hagree.file?_eq (endsWithin_of_text next h.input),
      fun _ _ hchain _ _ hread _ htarget _ _ _ hpath ↦
        hagree.file?_eq (endsWithin_of_text next (h.candidates hchain hread htarget hpath))⟩
  rw [PairedSource.generate_eq, PairedSource.generate_eq, hread.loadFrom_eq]

section Run

variable (hplace : IsDirectoryAt tree config.outputDir place)
  (hgenerate : ObjectiveC.frontEnd.generate ObjectiveC.engine config tree = .ok generation)

include hplace hgenerate

theorem stocked_runAlone :
    Stocked tree place (generation.artifacts.takeWhile (canHold tree config.outputDir place))
      (runAlone config tree).1 ∧
    ∃ outcome : WriteOutcome, (runAlone config tree).2 =
      (outcome.upTo config.outputDir
        (generation.artifacts.find? (!canHold tree config.outputDir place ·))).map
        (FrontEnd.report config generation) := by
  obtain ⟨units, hunits⟩ := exists_units_of_generate hgenerate
  have hplain := ObjectiveC.hasPlainNames_of_generate hunits
  obtain ⟨hstocked, outcome, houtcome⟩ :=
    hplace.stocked_writeArtifacts hplain.isName hplain.slash_notMem hplain.nodup {}
  simp only [runAlone, FrontEnd.run, hgenerate, Generation.write]
  exact ⟨hstocked, outcome, by rw [houtcome]⟩

theorem canHold_of_runAlone_ok (h : (runAlone config tree).2 = .ok report) :
    ∀ artifact ∈ generation.artifacts, canHold tree config.outputDir place artifact = true := by
  obtain ⟨-, outcome, houtcome⟩ := stocked_runAlone hplace hgenerate
  rw [h] at houtcome
  cases hfind : generation.artifacts.find? (!canHold tree config.outputDir place ·) with
  | none => simpa using hfind
  | some artifact =>
    rw [hfind] at houtcome
    cases houtcome

theorem file?_runAlone {artifact : Artifact}
    (hmem : artifact ∈ generation.artifacts.takeWhile (canHold tree config.outputDir place)) :
    (runAlone config tree).1.file? (artifact.pathIn config.outputDir) =
      some (place ++ [artifact.fileName], artifact.content.toUTF8) := by
  obtain ⟨hname, hslash, -⟩ :=
    fileName_of_frontEnd hgenerate ((List.takeWhile_sublist _).subset hmem)
  exact (stocked_runAlone hplace hgenerate).1.file?_eq (fun _ ↦ List.mem_takeWhile_imp) hplace
    hmem hname hslash

end Run

theorem exists_generate_eq_ok (tree : FileTree) (config : RunConfig)
    (h : ∀ e, (runAlone config tree).2 = .error e → e.IsWriteFailure) :
    ∃ generation, ObjectiveC.frontEnd.generate ObjectiveC.engine config tree = .ok generation := by
  cases hgenerate : ObjectiveC.frontEnd.generate ObjectiveC.engine config tree with
  | ok generation => exact ⟨generation, rfl⟩
  | error e =>
    have hfail := h e (by simp only [runAlone, FrontEnd.run, hgenerate])
    exact absurd hfail (ObjectiveC.failsWith_frontEnd_generate config tree e hgenerate)

/-- No run reads what a run writes. -/
theorem Stocked.agree_manifests (h : Stocked tree place done next)
    (hdone : ∀ artifact ∈ done, canHold tree config.outputDir place artifact = true)
    (hname : ∀ artifact ∈ done, ∀ front, artifact.fileName ≠ front ++ ".toml") :
    Agree IsManifestLocation next tree :=
  (h.agree hdone).mono fun _ hl artifact hmem ↦ hl.ne_append (hname artifact hmem)

theorem runAlone_again (hdirectory : tree.isDirectory config.outputDir = true)
    (hmanifests : ReadsManifests tree config) (h : runAlone config tree = (next, .ok report)) :
    runAlone config next =
      (next, .ok { report with outcome := { written := [], unchanged := report.artifacts } }) := by
  obtain ⟨place, hplace⟩ := exists_isDirectoryAt hdirectory
  have hnext : (runAlone config tree).1 = next := congrArg Prod.fst h
  have hresult : (runAlone config tree).2 = .ok report := congrArg Prod.snd h
  obtain ⟨generation, hgenerate⟩ := exists_generate_eq_ok tree config <| by
    rw [hresult]
    exact nofun
  have hall := canHold_of_runAlone_ok hplace hgenerate hresult
  have hfile : ∀ artifact ∈ generation.artifacts, ∃ l,
      next.file? (artifact.pathIn config.outputDir) = some (l, artifact.content.toUTF8) := by
    intro artifact hmem
    rw [← List.takeWhile_eq_self_iff.2 hall] at hmem
    exact ⟨_, hnext ▸ file?_runAlone hplace hgenerate hmem⟩
  have hstocked : Stocked tree place generation.artifacts next := by
    rw [← List.takeWhile_eq_self_iff.2 hall]
    exact hnext ▸ (stocked_runAlone hplace hgenerate).1
  have hagain := (hmanifests.generate_eq (hstocked.agree_manifests hall fun _ hmem ↦
    (fileName_of_frontEnd hgenerate hmem).2.2)).trans hgenerate
  obtain ⟨outcome, -, rfl⟩ := exists_written_of_runAlone_ok hgenerate hresult
  simp only [runAlone, FrontEnd.run, hagain, Generation.write, writeArtifacts_of_complete {} hfile]
  rfl

namespace FileTree.Clears

variable {directory : Path} (h : Clears tree location cleared)

include h

theorem isDirectoryAt (hplace : IsDirectoryAt tree directory place)
    (hdirectory : cleared.isDirectory directory = true) :
    IsDirectoryAt cleared directory place := by
  obtain ⟨place', hplace'⟩ := exists_isDirectoryAt hdirectory
  have hwalk := h.later.walk_start hplace'.walk
  rwa [Except.ok.inj (hplace.walk.symm.trans hwalk)]

theorem not_prefix_of_canHold (hplace : IsDirectoryAt cleared directory place)
    (hthere : tree.occupant? location = some none)
    (hhold : canHold tree directory place artifact = true) :
    ¬location <+: place ++ [artifact.fileName] := by
  rw [List.prefix_concat_iff, not_or]
  constructor
  · rintro rfl
    exact occupant?_ne_of_canHold hhold hthere
  · intro hbelow
    have hgone := h.gone place hbelow
    rw [hplace.isDirectory] at hgone
    cases hgone

theorem canHold_of_canHold (hplace : IsDirectoryAt cleared directory place)
    (hthere : tree.occupant? location = some none)
    (hhold : canHold tree directory place artifact = true) :
    canHold cleared directory place artifact = true := by
  rwa [canHold_congr h.workingDirectory
    (h.other _ (h.not_prefix_of_canHold hplace hthere hhold))]

theorem stocked (hretry : Clears next location retry) (hstocked : Stocked tree place done next)
    (hkept : ∀ artifact ∈ done, ¬location <+: place ++ [artifact.fileName]) :
    Stocked cleared place done retry := by
  refine ⟨?_, fun artifact hmem ↦ ?_, fun l hl ↦ ?_⟩
  · rw [hretry.workingDirectory, hstocked.workingDirectory, h.workingDirectory]
  · rw [hretry.other _ (hkept artifact hmem), hstocked.holds artifact hmem]
  · by_cases hbelow : location <+: l
    · rw [hretry.gone l hbelow, h.gone l hbelow]
    · rw [hretry.other l hbelow, h.other l hbelow, hstocked.other l hl]

end FileTree.Clears

/-- Where an earlier run has put some artifacts a run comes to the same, and to the same files. -/
theorem runAlone_resumed (hplace : IsDirectoryAt tree config.outputDir place)
    (hmanifests : ReadsManifests tree config) (hstocked : Stocked tree place done next)
    (hdone : ∀ artifact ∈ done, canHold tree config.outputDir place artifact = true)
    (hname : ∀ artifact ∈ done, ∀ front, artifact.fileName ≠ front ++ ".toml") :
    withoutWritten (runAlone config next).2 = withoutWritten (runAlone config tree).2 ∧
    ∀ generation, ObjectiveC.frontEnd.generate ObjectiveC.engine config tree = .ok generation →
      Stocked next place
        (generation.artifacts.takeWhile (canHold tree config.outputDir place))
        (runAlone config next).1 ∧
      ∀ artifact ∈ generation.artifacts.takeWhile (canHold tree config.outputDir place),
        (runAlone config next).1.file? (artifact.pathIn config.outputDir) =
          (runAlone config tree).1.file? (artifact.pathIn config.outputDir) := by
  have hagain := hmanifests.generate_eq (hstocked.agree_manifests hdone hname)
  have hplace' := (hstocked.agree hdone).symm.isDirectoryAt hplace
  cases hgenerate : ObjectiveC.frontEnd.generate ObjectiveC.engine config tree with
  | error e =>
    refine ⟨?_, nofun⟩
    simp only [runAlone, FrontEnd.run, hagain, hgenerate]
  | ok generation =>
    rw [hgenerate] at hagain
    obtain ⟨hnext, outcome, houtcome⟩ := stocked_runAlone hplace' hagain
    obtain ⟨-, outcome', houtcome'⟩ := stocked_runAlone hplace hgenerate
    rw [hstocked.canHold_eq hdone] at hnext houtcome
    refine ⟨?_, fun _ hgeneration ↦ ?_⟩
    · rw [houtcome, houtcome']
      cases generation.artifacts.find? _ <;> rfl
    · obtain rfl := Except.ok.inj hgeneration
      refine ⟨hnext, fun artifact hmem ↦ ?_⟩
      rw [file?_runAlone hplace hgenerate hmem, file?_runAlone hplace' hagain (by
        rwa [hstocked.canHold_eq hdone])]

/-- Running again after a success writes nothing and changes nothing. Where a directory was in the
way of an artifact and has been taken away, running again comes to what running comes to where that
directory has never been: it leaves the same at the paths of the artifacts if all of them can be
written then, and the same everywhere, whether they can or not, if the directory held nothing that
is read. -/
theorem rerun_stable (tree : FileTree) (config : RunConfig)
    (hdirectory : tree.isDirectory config.outputDir = true)
    (hmanifests : ReadsManifests tree config) :
    (∀ next report, runAlone config tree = (next, .ok report) →
      runAlone config next =
        (next, .ok { report with outcome := { written := [], unchanged := report.artifacts } })) ∧
    ∀ next path kind written location,
      runAlone config tree = (next, .error (.writeFailure path kind written)) →
      tree.locate path = .ok location → tree.occupant? location = some none →
      ∀ cleared retry, Clears tree location cleared → Clears next location retry →
        cleared.isDirectory config.outputDir = true → ReadsManifests cleared config →
          withoutWritten (runAlone config retry).2 = withoutWritten (runAlone config cleared).2 ∧
          (∀ report, (runAlone config cleared).2 = .ok report →
            ∀ path ∈ report.artifacts, ∃ found,
              (runAlone config cleared).1.file? path = some found ∧
                (runAlone config retry).1.file? path = some found) ∧
          (ObjectiveC.frontEnd.generate ObjectiveC.engine config cleared =
              ObjectiveC.frontEnd.generate ObjectiveC.engine config tree →
            (runAlone config retry).1.Same (runAlone config cleared).1) := by
  refine ⟨fun _ _ ↦ runAlone_again hdirectory hmanifests,
    fun next path kind written location hrun _ hthere cleared retry hcleared hretry hdirectory'
      hmanifests' ↦ ?_⟩
  obtain ⟨rfl, hresult⟩ := Prod.ext_iff.1 hrun
  obtain ⟨place, hplace⟩ := exists_isDirectoryAt hdirectory
  have hplace' := hcleared.isDirectoryAt hplace hdirectory'
  obtain ⟨generation, hgenerate⟩ := exists_generate_eq_ok tree config <| by
    rw [hresult]
    exact Except.FailsWith.error trivial
  have hhold : ∀ artifact, canHold tree config.outputDir place artifact = true →
      canHold cleared config.outputDir place artifact = true :=
    fun artifact ↦ hcleared.canHold_of_canHold hplace' hthere
  have hstocked := hcleared.stocked hretry (stocked_runAlone hplace hgenerate).1 fun artifact hmem ↦
    hcleared.not_prefix_of_canHold hplace' hthere (List.mem_takeWhile_imp hmem)
  have hname : ∀ artifact ∈ generation.artifacts.takeWhile
      (canHold tree config.outputDir place), ∀ front, artifact.fileName ≠ front ++ ".toml" :=
    fun artifact hmem ↦
      (fileName_of_frontEnd hgenerate ((List.takeWhile_sublist _).subset hmem)).2.2
  obtain ⟨hsame, hresumed⟩ := runAlone_resumed hplace' hmanifests' hstocked
    (fun artifact hmem ↦ hhold artifact (List.mem_takeWhile_imp hmem)) hname
  refine ⟨hsame, fun report hreport path hpath ↦ ?_, fun hgenerate' ↦ ?_⟩
  · obtain ⟨generation', hgenerate'⟩ := exists_generate_eq_ok cleared config <| by
      rw [hreport]
      exact nofun
    have hall := canHold_of_runAlone_ok hplace' hgenerate' hreport
    obtain ⟨outcome, -, rfl⟩ := exists_written_of_runAlone_ok hgenerate' hreport
    obtain ⟨artifact, hmem, rfl⟩ := List.mem_map.1 hpath
    rw [← List.takeWhile_eq_self_iff.2 hall] at hmem
    have hfile := file?_runAlone hplace' hgenerate' hmem
    exact ⟨_, hfile, ((hresumed generation' hgenerate').2 artifact hmem).trans hfile⟩
  · rw [hgenerate] at hgenerate'
    exact hstocked.same (List.takeWhile_subset_takeWhile hhold generation.artifacts)
      (hresumed generation hgenerate').1 (stocked_runAlone hplace' hgenerate').1

def jammed : FileTree where
  root := .directory [
    ("out", .directory [("Brand.m", .directory [("notes.txt", .file "".toUTF8)])]),
    ("a.toml", .file "[units.brand]\n".toUTF8)]
  workingDirectory := []

def jammedConfig : RunConfig where
  input := ⟨"a.toml"⟩
  outputDir := ⟨"out"⟩

theorem readsManifests_jammed : ReadsManifests jammed jammedConfig ∧
    ReadsManifests (jammed.uproot ["out", "Brand.m"]) jammedConfig := by
  constructor
  all_goals
    exact readsManifests_of_everyInclude [⟨⟨"a.toml"⟩, ["a.toml"]⟩] (by decide) (by decide)
      (by decide +kernel) (by decide +kernel)

theorem rerun_stable_jammed :
    jammed.isDirectory jammedConfig.outputDir = true ∧ ReadsManifests jammed jammedConfig ∧
    ∃ next, runAlone jammedConfig jammed =
        (next, .error (.writeFailure ⟨"out/Brand.m"⟩ .definition [⟨"out/Brand.h"⟩])) ∧
      (runAlone jammedConfig (next.uproot ["out", "Brand.m"])).1.Same
        (runAlone jammedConfig (jammed.uproot ["out", "Brand.m"])).1 ∧
      ∃ final report, runAlone jammedConfig (jammed.uproot ["out", "Brand.m"]) =
          (final, .ok report) ∧
        report.outcome = { written := [⟨"out/Brand.h"⟩, ⟨"out/Brand.m"⟩], unchanged := [] } ∧
        runAlone jammedConfig final = (final, .ok { report with
          outcome := { written := [], unchanged := report.artifacts } }) := by
  let cleared := jammed.uproot ["out", "Brand.m"]
  obtain ⟨hmanifests, hmanifests'⟩ := readsManifests_jammed
  have hrun : runAlone jammedConfig jammed = runBrand jammedConfig jammed :=
    runAlone_brand (by decide)
  have hrun' : runAlone jammedConfig cleared = runBrand jammedConfig cleared :=
    runAlone_brand (by decide)
  have hnext : (runBrand jammedConfig jammed).2 =
        .error (.writeFailure ⟨"out/Brand.m"⟩ .definition [⟨"out/Brand.h"⟩]) ∧
      ((runBrand jammedConfig jammed).1.occupant? ["out", "Brand.m"]).isSome = true ∧
      ((runBrand jammedConfig jammed).1.uproot ["out", "Brand.m"]).occupant?
        ["out", "Brand.m"] = none := by decide +kernel
  obtain ⟨hfail, hthere, hgone⟩ := hnext
  have houtcome : (runBrand jammedConfig cleared).2.toOption.map RunReport.outcome =
      some { written := [⟨"out/Brand.h"⟩, ⟨"out/Brand.m"⟩], unchanged := [] } := by decide +kernel
  obtain ⟨report, hreport, houtcome⟩ := Option.map_eq_some_iff.1 houtcome
  have hgenerate : ObjectiveC.frontEnd.generate ObjectiveC.engine jammedConfig cleared =
      ObjectiveC.frontEnd.generate ObjectiveC.engine jammedConfig jammed :=
    (generate_brand (by decide)).trans (generate_brand (by decide)).symm
  obtain ⟨-, hblocked⟩ := rerun_stable jammed jammedConfig (by decide) hmanifests
  obtain ⟨-, -, hsame⟩ := hblocked _ _ _ _ ["out", "Brand.m"]
    (hrun.trans (Prod.ext rfl hfail)) rfl rfl cleared
    ((runBrand jammedConfig jammed).1.uproot ["out", "Brand.m"])
    (clears_uproot (by decide) (by decide) (by decide))
    (clears_uproot (by decide) hthere hgone) (by decide) hmanifests'
  obtain ⟨hagain, -⟩ := rerun_stable cleared jammedConfig (by decide) hmanifests'
  have hdone : runAlone jammedConfig cleared = ((runBrand jammedConfig cleared).1, .ok report) :=
    hrun'.trans (Prod.ext rfl (Except.toOption_eq_some_iff.1 hreport))
  exact ⟨by decide, hmanifests, _, hrun.trans (Prod.ext rfl hfail), hsame hgenerate, _, report,
    hdone, houtcome, hagain _ _ hdone⟩

def enclosed : FileTree where
  root := .directory [("out", .directory [
    ("Brand.m", .directory [("units.toml", .file "[units.brand]\n".toUTF8)])])]
  workingDirectory := []

def enclosedConfig : RunConfig where
  input := ⟨"out/Brand.m/units.toml"⟩
  outputDir := ⟨"out"⟩

/-- With the directory its manifest is gone as well, so that running again leaves the first file
where a run without the directory makes none. -/
theorem header_left_behind :
    enclosed.isDirectory enclosedConfig.outputDir = true ∧ ReadsManifests enclosed enclosedConfig ∧
    ∃ next, runAlone enclosedConfig enclosed =
        (next, .error (.writeFailure ⟨"out/Brand.m"⟩ .definition [⟨"out/Brand.h"⟩])) ∧
      enclosed.locate ⟨"out/Brand.m"⟩ = .ok ["out", "Brand.m"] ∧
      enclosed.occupant? ["out", "Brand.m"] = some none ∧
      Clears enclosed ["out", "Brand.m"] (enclosed.uproot ["out", "Brand.m"]) ∧
      Clears next ["out", "Brand.m"] (next.uproot ["out", "Brand.m"]) ∧
      ((runAlone enclosedConfig (next.uproot ["out", "Brand.m"])).1.file?
        ⟨"out/Brand.h"⟩).isSome = true ∧
      (runAlone enclosedConfig (enclosed.uproot ["out", "Brand.m"])).1.file?
        ⟨"out/Brand.h"⟩ = none := by
  have hmanifests : ReadsManifests enclosed enclosedConfig :=
    readsManifests_of_everyInclude
      [⟨⟨"out/Brand.m/units.toml"⟩, ["out", "Brand.m", "units.toml"]⟩] (by decide)
      (by decide) (by decide +kernel) (by decide +kernel)
  have hrun : runAlone enclosedConfig enclosed = runBrand enclosedConfig enclosed :=
    runAlone_brand (by decide)
  have hnext : (runBrand enclosedConfig enclosed).2 =
        .error (.writeFailure ⟨"out/Brand.m"⟩ .definition [⟨"out/Brand.h"⟩]) ∧
      ((runBrand enclosedConfig enclosed).1.occupant? ["out", "Brand.m"]).isSome = true ∧
      ((runBrand enclosedConfig enclosed).1.uproot ["out", "Brand.m"]).occupant?
        ["out", "Brand.m"] = none ∧
      ((runBrand enclosedConfig enclosed).1.uproot ["out", "Brand.m"]).file?
        enclosedConfig.input = none ∧
      (((runBrand enclosedConfig enclosed).1.uproot ["out", "Brand.m"]).file?
        ⟨"out/Brand.h"⟩).isSome = true := by decide +kernel
  obtain ⟨hfail, hthere, hgone, hfile, hleft⟩ := hnext
  have hunread : ∀ tree : FileTree, tree.file? enclosedConfig.input = none →
      (runAlone enclosedConfig tree).1 = tree := by
    intro tree hfile
    simp only [runAlone, FrontEnd.run, PairedSource.generate_eq,
      Manifest.loadFrom_of_file?_eq_none hfile, Except.error_bind]
  refine ⟨by decide, hmanifests, _, hrun.trans (Prod.ext rfl hfail), rfl, rfl,
    clears_uproot (by decide) (by decide) (by decide), clears_uproot (by decide) hthere hgone,
    ?_, ?_⟩
  · rwa [hunread _ hfile]
  · rw [hunread _ (by decide)]
    decide

end PairedSource
