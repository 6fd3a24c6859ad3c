import PairedSource.Proofs.Assembly.Errors
import PairedSource.Proofs.Concurrent.Independence
import PairedSource.Proofs.Output.Framed
import PairedSource.Report.Check
import PairedSource.Report.Generate

namespace PairedSource

open Invocation Relation Report

/-- What a check, a preview and a run say about one input is the same, and so is what the run
leaves behind. -/
structure Agreement (config : RunConfig) (entry : CheckEntry) (checked : Preview)
    (outcome : RunOutcome RunReport) (final : FileTree) : Prop where
  input : entry.input = config.input ∧ checked.input = config.input ∧ outcome.input = config.input
  fails_iff : (∃ e, outcome.result = .error e ∧ e.kind ≠ "write-failure") ↔
    ∃ e, checked.result = .error e
  failure : ∀ e, checked.result = .error e →
    outcome.result = .error e ∧ entry.failure = some ⟨e.kind, e.message⟩
  success : ∀ generation, checked.result = .ok generation → entry.failure = none ∧
    ∀ report, outcome.result = .ok report →
      entry.units = report.units ∧
      report.artifacts = entry.artifacts.map (config.outputDir.join ⟨·⟩) ∧
      report.artifacts.map Path.fileName? = entry.artifacts.map some ∧
      (previewFiles config.outputDir generation).map PreviewFile.path = report.artifacts ∧
      ∀ file ∈ previewFiles config.outputDir generation,
        (final.file? file.path).map Prod.snd = some file.content.toUTF8

variable {tree final : FileTree} {configs : List RunConfig}
  {place : Nat → Location} {system : System} {index : Nat} {config : RunConfig} {checked : Preview}
  {generation : Generation} {report : RunReport} {e : Error}

theorem not_isWriteFailure_of_preview (hconfig : configs[index]? = some config)
    (hchecked : (preview tree configs)[index]? = some checked)
    (hresult : checked.result = .error e) : ¬e.IsWriteFailure := by
  rw [preview_eq] at hchecked
  by_cases hshared : IsShared (drafts tree configs) index
  · obtain ⟨_, draft, _, _, _, _, _, -, -, -, hafter, -⟩ :=
      getElem?_rejectShared_of_isShared hshared
    obtain rfl := Option.some.inj (hafter.symm.trans hchecked)
    obtain rfl := Except.error.inj hresult
    exact not_false
  · rw [getElem?_rejectShared_of_not_isShared hshared, getElem?_drafts hconfig tree] at hchecked
    obtain rfl := Option.some.inj hchecked
    exact ObjectiveC.failsWith_frontEnd_generate config tree e hresult

theorem kind_of_runAlone_error
    (hgenerate : ObjectiveC.frontEnd.generate ObjectiveC.engine config tree = .ok generation)
    (h : (runAlone config tree).2 = .error e) : e.kind = "write-failure" := by
  simp only [runAlone, FrontEnd.run, hgenerate, Generation.write] at h
  cases hwritten : (writeArtifacts config.outputDir tree {} generation.artifacts).2 with
  | error e' =>
    rw [hwritten] at h
    obtain rfl := Except.error.inj h
    obtain ⟨units, hunits⟩ := exists_units_of_generate hgenerate
    obtain ⟨-, -, -, -, rfl, -⟩ := (isWritten_of_write
      (ObjectiveC.hasPlainNames_of_generate hunits) _ _ _).2 e' (Prod.ext rfl hwritten)
    rfl
  | ok outcome =>
    rw [hwritten] at h
    cases h

theorem exists_written_of_runAlone_ok
    (hgenerate : ObjectiveC.frontEnd.generate ObjectiveC.engine config tree = .ok generation)
    (h : (runAlone config tree).2 = .ok report) : ∃ outcome,
      writeArtifacts config.outputDir tree {} generation.artifacts =
        ((runAlone config tree).1, .ok outcome) ∧
      report = FrontEnd.report config generation outcome := by
  simp only [runAlone, FrontEnd.run, hgenerate, Generation.write] at h ⊢
  cases hwritten : (writeArtifacts config.outputDir tree {} generation.artifacts).2 with
  | error e =>
    rw [hwritten] at h
    cases h
  | ok outcome =>
    rw [hwritten] at h
    obtain rfl := Except.ok.inj h
    exact ⟨outcome, Prod.ext rfl hwritten, rfl⟩

namespace SharesDirectory

variable (h : SharesDirectory tree configs place)
  (ha : accepted? tree configs index = some (config, generation))

include h ha

theorem file?_of_runAlone (hrun : (runAlone config tree).2 = .ok report) {artifact : Artifact}
    (hmem : artifact ∈ generation.artifacts) :
    (runAlone config tree).1.file? (artifact.pathIn config.outputDir) =
      some (place index ++ [artifact.fileName], artifact.content.toUTF8) := by
  have hgenerate := (generate_of_accepted? ha).1
  obtain ⟨units, hunits⟩ := exists_units_of_generate hgenerate
  obtain ⟨outcome, hwritten, -⟩ := exists_written_of_runAlone_ok hgenerate hrun
  have hplain := ObjectiveC.hasPlainNames_of_generate hunits
  obtain ⟨l, hfile⟩ := ((isWritten_of_write hplain _ _ _).1 outcome hwritten).complete artifact hmem
  have hlater := later_of_writeArtifacts config.outputDir tree {} generation.artifacts
  rw [hwritten] at hlater
  have hslot := hlater.isSlot (h.isSlot_of_accepted? ha hmem)
  rw [hfile, ((hslot.file?_eq_some_iff (hplain.isName artifact hmem)).1 hfile).2.1]

theorem file?_of_runsDone {done : List Nat} (hd : RunsDone tree configs place done final)
    (hdone : index ∈ done) (hrun : (runAlone config tree).2 = .ok report) {artifact : Artifact}
    (hmem : artifact ∈ generation.artifacts) :
    final.file? (artifact.pathIn config.outputDir) =
      some (place index ++ [artifact.fileName], artifact.content.toUTF8) := by
  have hwithin : FileTree.EndsWithin (Scope tree configs place index) tree
      (artifact.pathIn config.outputDir) := (h.allowsWriting ha hmem).1
  rw [(hd.ended index config generation ha hdone).file?_eq
    (hd.untouched.symm.endsWithin hwithin)]
  exact h.file?_of_runAlone ha hrun hmem

end SharesDirectory

theorem agreement_of_error (hinput : checked.input = config.input)
    (hresult : checked.result = .error e) (hkind : ¬e.IsWriteFailure) (final : FileTree) :
    Agreement config (.ofPreview checked) checked (runOne tree config checked).2 final := by
  have hentry : CheckEntry.ofPreview checked =
      { input := checked.input, failure := some ⟨e.kind, e.message⟩ } := by
    simp only [CheckEntry.ofPreview, hresult]
  rw [runOne_error hresult, hentry]
  refine ⟨⟨hinput, hinput, hinput⟩, ⟨fun _ ↦ ⟨e, hresult⟩, fun _ ↦ ⟨e, rfl, ?_⟩⟩,
    fun e' hresult' ↦ ?_, fun generation hresult' ↦ ?_⟩
  · rwa [ne_eq, Error.kind_eq_iff]
  · obtain rfl := Except.error.inj (hresult.symm.trans hresult')
    exact ⟨rfl, rfl⟩
  · rw [hresult] at hresult'
    cases hresult'

/-- An input that is accepted is written as it was previewed, if it can be written. -/
theorem SharesDirectory.agreement_of_ok {done : List Nat}
    (h : SharesDirectory tree configs place)
    (hd : RunsDone tree configs place done final) (hdone : index ∈ done)
    (ha : accepted? tree configs index = some (config, generation))
    (hinput : checked.input = config.input) (hresult : checked.result = .ok generation) :
    Agreement config (.ofPreview checked) checked (runOne tree config checked).2 final := by
  have hgenerate := (generate_of_accepted? ha).1
  have hentry : CheckEntry.ofPreview checked =
      { input := checked.input
        units := generation.unitNames
        artifacts := generation.artifacts.map Artifact.fileName } := by
    simp only [CheckEntry.ofPreview, hresult]
  rw [runOne_ok hresult, hentry]
  refine ⟨⟨hinput, hinput, rfl⟩, ⟨fun ⟨e, hrun, hkind⟩ ↦ ?_, fun ⟨e, hfail⟩ ↦ ?_⟩,
    fun e hfail ↦ ?_, fun generation' hresult' ↦ ⟨rfl, fun report hrun ↦ ?_⟩⟩
  · exact absurd (kind_of_runAlone_error hgenerate hrun) hkind
  · rw [hresult] at hfail
    cases hfail
  · rw [hresult] at hfail
    cases hfail
  · obtain rfl := Except.ok.inj (hresult.symm.trans hresult')
    obtain ⟨outcome, -, rfl⟩ := exists_written_of_runAlone_ok hgenerate hrun
    refine ⟨rfl, ?_, ?_, ?_, fun file hfile ↦ ?_⟩
    · rw [FrontEnd.report, List.map_map]
      rfl
    · rw [FrontEnd.report, List.map_map, List.map_map]
      exact List.map_congr_left fun artifact hmem ↦
        (h.isSlot_of_accepted? ha hmem).fileName?_eq (fileName_of_accepted? ha hmem).1
    · rw [previewFiles, List.map_map]
      rfl
    · obtain ⟨artifact, hmem, rfl⟩ := List.mem_map.1 hfile
      rw [h.file?_of_runsDone ha hd hdone hrun hmem]
      rfl

/-- A check, a preview and a run of the same inputs agree on every input, however the requests of
the runs alternate. After a check without failures nothing can go wrong but the writing. -/
theorem check_preview_run_agree (tree : FileTree) (configs : List RunConfig) (directory : Path)
    (hdirectory : tree.isDirectory directory = true)
    (houtput : ∀ config ∈ configs, config.outputDir = directory)
    (hmanifests : ∀ config ∈ configs, ReadsManifests tree config) (system : System)
    (hreach : ReflTransGen (System.Step configs) (System.start tree configs) system)
    (hcomplete : system.IsComplete) :
    (∀ (index : Nat) config, configs[index]? = some config → ∃ entry checked outcome,
      (check tree configs).entries[index]? = some entry ∧
      (preview tree configs)[index]? = some checked ∧
      (system.outcomes tree configs)[index]? = some outcome ∧
      Agreement config entry checked outcome system.tree) ∧
    ((check tree configs).isValid = true →
      ∀ outcome ∈ system.outcomes tree configs, ∀ e, outcome.result = .error e →
        e.kind = "write-failure") := by
  obtain ⟨place, h⟩ := exists_sharesDirectory hdirectory houtput hmanifests
  obtain ⟨left, hi, hr⟩ := h.independent_of_reachable hreach
  have hd := hi.runsDone hcomplete fun index ↦ mem_acceptedIndices.2
  rw [outcomes_eq_expected hr hcomplete]
  have hall : ∀ (index : Nat) config, configs[index]? = some config → ∃ checked,
      (preview tree configs)[index]? = some checked ∧
      (expected tree configs)[index]? = some (runOne tree config checked).2 ∧
      Agreement config (.ofPreview checked) checked (runOne tree config checked).2
        system.tree := by
    intro index config hconfig
    obtain ⟨checked, hchecked, hinput⟩ := getElem?_preview tree hconfig
    refine ⟨checked, hchecked,
      getElem?_expected_eq_some_iff.2 ⟨config, checked, hconfig, hchecked, rfl⟩, ?_⟩
    cases hresult : checked.result with
    | error e =>
      exact agreement_of_error hinput hresult
        (not_isWriteFailure_of_preview hconfig hchecked hresult) _
    | ok generation =>
      have ha : accepted? tree configs index = some (config, generation) :=
        accepted?_eq_some_iff.2 ⟨hconfig, by rw [hchecked, Option.map_some, hresult]⟩
      exact h.agreement_of_ok hd (mem_acceptedIndices.2 (by simp [ha])) ha hinput hresult
  refine ⟨fun index config hconfig ↦ ?_, fun hvalid outcome hmem e hfail ↦ ?_⟩
  · obtain ⟨checked, hchecked, hexpected, hagree⟩ := hall index config hconfig
    refine ⟨_, checked, _, ?_, hchecked, hexpected, hagree⟩
    rw [check, CheckReport.ofPreviews, List.getElem?_map, hchecked, Option.map_some]
  · obtain ⟨index, hindex⟩ := List.mem_iff_getElem?.1 hmem
    obtain ⟨config, checked, hconfig, hchecked, rfl⟩ := getElem?_expected_eq_some_iff.1 hindex
    obtain ⟨checked', hchecked', -, hagree⟩ := hall index config hconfig
    obtain rfl := Option.some.inj (hchecked.symm.trans hchecked')
    by_contra hkind
    obtain ⟨e', hresult⟩ := hagree.fails_iff.1 ⟨e, hfail, hkind⟩
    have hnone := List.all_eq_true.1 hvalid (.ofPreview checked)
      (List.mem_map_of_mem (List.mem_of_getElem? hchecked))
    rw [(hagree.failure e' hresult).2] at hnone
    cases hnone

theorem check_preview_run_agree_workshop :
    workshop.isDirectory ⟨"out"⟩ = true ∧
    (∀ config ∈ workshopConfigs, config.outputDir = ⟨"out"⟩) ∧
    (∀ config ∈ workshopConfigs, ReadsManifests workshop config) ∧
    ∃ system, ReflTransGen (System.Step workshopConfigs)
        (System.start workshop workshopConfigs) system ∧ system.IsComplete ∧
      ∃ entry checked outcome,
        (check workshop workshopConfigs).entries[0]? = some entry ∧
        (preview workshop workshopConfigs)[0]? = some checked ∧
        (system.outcomes workshop workshopConfigs)[0]? = some outcome ∧
        Agreement { input := ⟨"a.toml"⟩, outputDir := ⟨"out"⟩ } entry checked outcome
          system.tree := by
  have hdirectory : workshop.isDirectory ⟨"out"⟩ = true := by decide +kernel
  have houtput : ∀ config ∈ workshopConfigs, config.outputDir = ⟨"out"⟩ := by decide +kernel
  obtain ⟨place, h⟩ := exists_sharesDirectory hdirectory houtput readsManifests_workshop
  obtain ⟨system, hreach, hcomplete⟩ := h.exists_isComplete
  have hall := (check_preview_run_agree workshop workshopConfigs ⟨"out"⟩ hdirectory houtput
    readsManifests_workshop system hreach hcomplete).1
  exact ⟨hdirectory, houtput, readsManifests_workshop, system, hreach, hcomplete,
    hall 0 _ rfl⟩

end PairedSource
