import PairedSource.Proofs.Concurrent.Confined
import PairedSource.Proofs.Concurrent.Independence

namespace PairedSource

open Invocation Progress Relation

variable {tree : FileTree} {configs : List RunConfig} {place : Nat → Location}
  {system : System} {index other : Nat} {config config' : RunConfig}
  {location : Location}

variable (tree config location) in
def WouldWrite : Prop :=
  ∃ generation, ObjectiveC.frontEnd.generate ObjectiveC.engine config tree = .ok generation ∧
    ∃ artifact ∈ generation.artifacts, ∃ directory,
      FileTree.IsSlot tree (artifact.pathIn config.outputDir) directory artifact.fileName ∧
        location = directory ++ [artifact.fileName]

theorem accepted?_eq_none_of_isShared (h : IsShared (drafts tree configs) index) :
    accepted? tree configs index = none := by
  cases ha : accepted? tree configs index with
  | none => rfl
  | some found => exact absurd h (generate_of_accepted? ha).2

theorem exists_outcome_of_isShared (hr : Answered tree configs system)
    (hcomplete : system.IsComplete) (h : IsShared (drafts tree configs) index) :
    ∃ outcome path first second, (system.outcomes tree configs)[index]? = some outcome ∧
      outcome.result = .error (.sharedOutput path first second) := by
  obtain ⟨_, _, path, _, _, _, _, -, -, -, hafter, -⟩ :=
    getElem?_rejectShared_of_isShared h
  rw [← preview_eq] at hafter
  have hearly := mem_early_iff.2 ⟨_, _, hafter, rfl, rfl⟩
  exact ⟨_, path, _, _, hr.getElem?_outcomes hcomplete hearly, rfl⟩

theorem HasPlaces.isShared_of_wouldWrite (h : HasPlaces tree configs place)
    (hne : other ≠ index) (hconfig : configs[index]? = some config)
    (hconfig' : configs[other]? = some config') (hwould : WouldWrite tree config location)
    (hwould' : WouldWrite tree config' location) : IsShared (drafts tree configs) index := by
  have hplace : ∀ index config, configs[index]? = some config → WouldWrite tree config location →
      ∃ generation, ObjectiveC.frontEnd.generate ObjectiveC.engine config tree = .ok generation ∧
        ∃ artifact ∈ generation.artifacts, location = place index ++ [artifact.fileName] := by
    intro index config hconfig hwould
    obtain ⟨generation, hgenerate, artifact, hmem, directory, hslot, rfl⟩ := hwould
    have hslot' := FileTree.isSlot_join (h.walk index config hconfig)
      (h.isDirectory index config hconfig) (fileName_of_frontEnd hgenerate hmem).2.1
    exact ⟨generation, hgenerate, artifact, hmem, by rw [hslot.unique hslot']⟩
  obtain ⟨generation, hgenerate, artifact, hmem, hlocation⟩ := hplace index config hconfig hwould
  obtain ⟨generation', hgenerate', artifact', hmem', hlocation'⟩ :=
    hplace other config' hconfig' hwould'
  exact h.isShared_of_location hne hconfig hconfig' hgenerate hgenerate' hmem hmem' hlocation
    hlocation'

/-- Where one directory is not spelled in two ways, no location is written by two runs, whatever
they read and however their requests alternate. Two inputs that would write to one location both
fail, and their runs never begin. -/
theorem locations_written_by_one (tree : FileTree) (configs : List RunConfig)
    (hdirectories : ∀ config ∈ configs, tree.isDirectory config.outputDir = true)
    (hspelling : ∀ config ∈ configs, ∀ config' ∈ configs,
      tree.locate config.outputDir = tree.locate config'.outputDir →
        config.outputDir.Same config'.outputDir)
    {index other : Nat} (hne : other ≠ index) (location : Location) :
    (∀ before after,
      ReflTransGen (System.Step configs) (System.start tree configs) before →
      ReflTransGen (System.Step configs) (System.start tree configs) after →
        before.Writes configs index location → ¬after.Writes configs other location) ∧
    ∀ config config', configs[index]? = some config → configs[other]? = some config' →
      WouldWrite tree config location → WouldWrite tree config' location →
      ∀ system, ReflTransGen (System.Step configs) (System.start tree configs) system →
        ∀ i, i = index ∨ i = other → system.runs i = none ∧
          (system.IsComplete → ∃ outcome path first second,
            (system.outcomes tree configs)[i]? = some outcome ∧
              outcome.result = .error (.sharedOutput path first second)) := by
  obtain ⟨place, h⟩ := exists_hasPlaces hdirectories hspelling
  constructor
  · intro before after hbefore hafter hwrites hwrites'
    have howns := h.owns_of_writes (h.confined_of_reachable hbefore).1 hwrites
    have howns' := h.owns_of_writes (h.confined_of_reachable hafter).1 hwrites'
    exact h.scope_of_owns howns other hne howns'
  · intro config config' hconfig hconfig' hwould hwould' system hreach i hi
    have hshared : IsShared (drafts tree configs) i := by
      rcases hi with rfl | rfl
      · exact h.isShared_of_wouldWrite hne hconfig hconfig' hwould hwould'
      · exact h.isShared_of_wouldWrite hne.symm hconfig' hconfig hwould' hwould
    have hr := (h.confined_of_reachable hreach).2
    refine ⟨?_, fun hcomplete ↦ exists_outcome_of_isShared hr hcomplete hshared⟩
    cases hrun : system.runs i with
    | none => rfl
    | some progress =>
      have haccepted := ((hr.runs i).1 (by rw [hrun]; rfl)).1
      rw [accepted?_eq_none_of_isShared hshared] at haccepted
      cases haccepted

def depot : FileTree where
  root := .directory [
    ("out", .directory []),
    ("lib", .directory []),
    ("a.toml", .file "[units.brand]\n".toUTF8),
    ("b.toml", .file "[units.brand]\n".toUTF8),
    ("c.toml", .file "[units.brand]\n".toUTF8)]
  workingDirectory := []

def depotConfigs : List RunConfig :=
  [{ input := ⟨"a.toml"⟩, outputDir := ⟨"out"⟩ }, { input := ⟨"b.toml"⟩, outputDir := ⟨"out/"⟩ },
    { input := ⟨"c.toml"⟩, outputDir := ⟨"lib"⟩ }]

theorem isDirectory_depot : ∀ config ∈ depotConfigs, depot.isDirectory config.outputDir = true := by
  decide

theorem spelling_depot : ∀ config ∈ depotConfigs, ∀ config' ∈ depotConfigs,
    depot.locate config.outputDir = depot.locate config'.outputDir →
      config.outputDir.Same config'.outputDir := by
  have hall : ∀ config ∈ depotConfigs, ∀ config' ∈ depotConfigs,
      (depot.locate config.outputDir).toOption = (depot.locate config'.outputDir).toOption →
        config.outputDir.Same config'.outputDir := by decide
  intro config hconfig config' hconfig' h
  exact hall config hconfig config' hconfig' (congrArg Except.toOption h)

theorem readsManifests_depot : ∀ config ∈ depotConfigs, ReadsManifests depot config := by
  let stops (config : RunConfig) : List Manifest.Stop := [⟨config.input, [config.input.text]⟩]
  have hall : ∀ config ∈ depotConfigs,
      ".toml".toList.isSuffixOf config.input.text.toList = true ∧
      ((depot.file? config.input).all fun found ↦ ⟨config.input, found.1⟩ ∈ stops config) ∧
      Manifest.everyInclude depot (stops config)
        (Manifest.leadsInto depot config.searchPath (stops config)) = true ∧
      Manifest.everyInclude depot (stops config)
        (fun _ target ↦ ".toml".toList.isSuffixOf target.toList) = true := by decide +kernel
  intro config hconfig
  obtain ⟨hinput, hroot, hclosed, hall⟩ := hall config hconfig
  exact readsManifests_of_everyInclude (stops config) hinput hroot hclosed hall

def brandModels : List (UnitModel Entry) :=
  [{ key := "brand" }]

theorem generate_brand
    (hfile : (tree.file? config.input).map (·.2.data) = some "[units.brand]\n".toUTF8.data) :
    ObjectiveC.frontEnd.generate ObjectiveC.engine config tree =
      generateFrom config brandModels := by
  have hread : (Manifest.readAt depot ["a.toml"]).map (fun read ↦ (read.1.includes, read.2)) =
      some ([], brandModels) := by decide +kernel
  obtain ⟨⟨location, content⟩, hfile, hcontent⟩ := Option.map_eq_some_iff.1 hfile
  obtain rfl : content = "[units.brand]\n".toUTF8 := ByteArray.ext hcontent
  have hstands : depot.fileAt ["a.toml"] = some "[units.brand]\n".toUTF8 := rfl
  rw [Manifest.readAt_eq hstands, Option.map_map] at hread
  obtain ⟨⟨source, manifest, models⟩, hsome, hpair⟩ := Option.map_eq_some_iff.1 hread
  obtain ⟨hincludes, rfl⟩ : manifest.includes = [] ∧ models = brandModels := Prod.mk.inj hpair
  rw [generate_eq, Manifest.loadFrom_eq hfile, Except.toOption_eq_some_iff.1 hsome]
  simp only [Except.ok_bind, hincludes, Manifest.loadIncludes]
  rfl

theorem wouldWrite_depot : ∀ config ∈ depotConfigs.take 2,
    WouldWrite depot config ["out", "Brand.h"] := by
  have hall : ∀ config ∈ depotConfigs.take 2,
      (depot.file? config.input).map (·.2.data) = some "[units.brand]\n".toUTF8.data ∧
      depot.walk (depot.start config.outputDir) config.outputDir.segments = .ok ["out"] ∧
      ((generateFrom config brandModels).toOption.bind
        fun generation ↦ generation.artifact? "Brand.h").isSome = true := by decide
  intro config hconfig
  obtain ⟨hfile, hwalk, hsome⟩ := hall config hconfig
  obtain ⟨artifact, hartifact⟩ := Option.isSome_iff_exists.1 hsome
  obtain ⟨generation, hgeneration, hfind⟩ := Option.bind_eq_some_iff.1 hartifact
  have hname : artifact.fileName = "Brand.h" := by simpa using List.find?_some hfind
  have hgenerate := (generate_brand hfile).trans (Except.toOption_eq_some_iff.1 hgeneration)
  refine ⟨generation, hgenerate, artifact, List.mem_of_find?_eq_some hfind, ["out"], ?_,
    by rw [hname]; rfl⟩
  exact FileTree.isSlot_join hwalk (by decide) (fileName_of_frontEnd hgenerate
    (List.mem_of_find?_eq_some hfind)).2.1

theorem locations_written_by_one_depot :
    (∀ config ∈ depotConfigs, depot.isDirectory config.outputDir = true) ∧
    (∀ config ∈ depotConfigs, ∀ config' ∈ depotConfigs,
      depot.locate config.outputDir = depot.locate config'.outputDir →
        config.outputDir.Same config'.outputDir) ∧
    ∃ system, ReflTransGen (System.Step depotConfigs) (System.start depot depotConfigs) system ∧
      system.IsComplete ∧ ∃ outcome path first second,
        (system.outcomes depot depotConfigs)[0]? = some outcome ∧
          outcome.result = .error (.sharedOutput path first second) := by
  obtain ⟨place, h⟩ := exists_hasPlaces isDirectory_depot spelling_depot
  have hshares : SharesDirectory depot depotConfigs place := ⟨h, readsManifests_depot⟩
  obtain ⟨system, hreach, hcomplete⟩ := hshares.exists_isComplete
  have hrefused := (locations_written_by_one depot depotConfigs isDirectory_depot spelling_depot
    (show 1 ≠ 0 by decide) ["out", "Brand.h"]).2 _ _ rfl rfl
    (wouldWrite_depot _ (by decide)) (wouldWrite_depot _ (by decide)) system hreach 0 (.inl rfl)
  exact ⟨isDirectory_depot, spelling_depot, system, hreach, hcomplete, hrefused.2 hcomplete⟩

/-- The first two inputs of the depot, the directory of the second with a dot before it. -/
def respelledConfigs : List RunConfig :=
  [{ input := ⟨"a.toml"⟩, outputDir := ⟨"out"⟩ }, { input := ⟨"b.toml"⟩, outputDir := ⟨"./out"⟩ }]

def runBrand (config : RunConfig) (tree : FileTree) : FileTree × Except Error RunReport :=
  match generateFrom config brandModels with
  | .error e => (tree, .error e)
  | .ok generation =>
    let (tree, written) := generation.write config.outputDir tree
    (tree, written.map (FrontEnd.report config generation))

theorem runAlone_brand
    (hfile : (tree.file? config.input).map (·.2.data) = some "[units.brand]\n".toUTF8.data) :
    runAlone config tree = runBrand config tree := by
  rw [runAlone, FrontEnd.run, generate_brand hfile]
  rfl

theorem preview_respelled : (preview depot respelledConfigs).map RunOutcome.result =
    respelledConfigs.map (generateFrom · brandModels) := by
  have hdrafts : drafts depot respelledConfigs = respelledConfigs.map fun config ↦
      (config.outputDir, { input := config.input, result := generateFrom config brandModels }) := by
    have hall : ∀ config ∈ respelledConfigs,
        (depot.file? config.input).map (·.2.data) = some "[units.brand]\n".toUTF8.data := by
      decide
    refine List.map_congr_left fun config hconfig ↦ ?_
    rw [generate_brand (hall config hconfig)]
  rw [preview_eq, hdrafts]
  decide

/-- Both inputs pass, and the second writes over what the first wrote. -/
theorem output_overwritten :
    depot.locate ⟨"out"⟩ = depot.locate ⟨"./out"⟩ ∧
    (generate depot respelledConfigs).2.map (fun outcome ↦
      outcome.result.toOption.map fun report ↦ report.outcome.written.map Path.text) =
      [some ["out/Brand.h", "out/Brand.m"], some ["./out/Brand.h", "./out/Brand.m"]] := by
  refine ⟨by decide, ?_⟩
  let first : RunConfig := { input := ⟨"a.toml"⟩, outputDir := ⟨"out"⟩ }
  let second : RunConfig := { input := ⟨"b.toml"⟩, outputDir := ⟨"./out"⟩ }
  obtain ⟨checked, rest, hpreview, hfirst, hrest⟩ := List.map_eq_cons_iff.1 preview_respelled
  obtain ⟨checked', rest, rfl, hsecond, hnil⟩ := List.map_eq_cons_iff.1 hrest
  obtain rfl := List.map_eq_nil_iff.1 hnil
  have hok : ∀ config ∈ respelledConfigs,
      (generateFrom config brandModels).toOption.isSome = true := by decide
  obtain ⟨generation, hgeneration⟩ := Option.isSome_iff_exists.1 (hok first (by decide))
  obtain ⟨generation', hgeneration'⟩ := Option.isSome_iff_exists.1 (hok second (by decide))
  have hfirst := hfirst.trans (Except.toOption_eq_some_iff.1 hgeneration)
  have hsecond := hsecond.trans (Except.toOption_eq_some_iff.1 hgeneration')
  have hrun : runAlone first depot = runBrand first depot :=
    runAlone_brand (by decide)
  have hrun' : runAlone second (runBrand first depot).1 =
      runBrand second (runBrand first depot).1 :=
    runAlone_brand (by decide +kernel)
  have hgenerate : (generate depot respelledConfigs).2.map RunOutcome.result =
      [(runBrand first depot).2, (runBrand second (runBrand first depot).1).2] := by
    rw [generate, hpreview, ← hrun', ← hrun]
    simp only [respelledConfigs, List.zip_cons_cons, runAll, runOne_ok hfirst, runOne_ok hsecond]
    rfl
  have hmap : ∀ outcomes : List (RunOutcome RunReport), outcomes.map (fun outcome ↦
      outcome.result.toOption.map fun report ↦ report.outcome.written.map Path.text) =
      (outcomes.map RunOutcome.result).map fun result ↦
        result.toOption.map fun report ↦ report.outcome.written.map Path.text := by
    intro outcomes
    rw [List.map_map]
    rfl
  rw [hmap, hgenerate]
  decide +kernel

end PairedSource
