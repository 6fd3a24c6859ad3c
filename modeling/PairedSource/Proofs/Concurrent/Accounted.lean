import PairedSource.Proofs.Concurrent.Agreement
import PairedSource.Proofs.Concurrent.Overlay

namespace PairedSource

open Invocation Relation

/-- The paths that a run says it has written, also when it failed to write another one. -/
def writtenPaths : Except Error RunReport → List Path
  | .ok report => report.outcome.written
  | .error (.writeFailure _ _ written) => written
  | .error _ => []

variable {tree final : FileTree} {configs : List RunConfig} {directory : Path} {l : Location}
  {place : Nat → Location} {system system' : System} {index : Nat} {config : RunConfig}
  {generation : Generation} {outcome : WriteOutcome} {artifacts : List Artifact}
  {done : List Nat} {p : Path} {e : Error}

variable (tree final) in
/-- The files that are new or other than before are those that are reported as written. No file has
gone, and directories are what they were. -/
structure Accounted (outcomes : List (RunOutcome RunReport)) : Prop where
  changed : ∀ l, final.fileAt l ≠ tree.fileAt l ↔
    ∃ outcome ∈ outcomes, ∃ p ∈ writtenPaths outcome.result, final.locate p = .ok l
  located : ∀ outcome ∈ outcomes, ∀ p ∈ writtenPaths outcome.result, ∃ l, final.locate p = .ok l
  kept : ∀ l, (tree.fileAt l).isSome = true → (final.fileAt l).isSome = true
  directory : ∀ l, final.occupant? l = some none ↔ tree.occupant? l = some none

theorem writtenPaths_error (h : ¬e.IsWriteFailure) : writtenPaths (.error e) = [] := by
  cases e with
  | writeFailure path artifact written => exact absurd trivial h
  | _ => rfl

section Alone

theorem failsWith_writeArtifacts (directory : Path) (tree : FileTree) (outcome : WriteOutcome)
    (artifacts : List Artifact) :
    Except.FailsWith Error.IsWriteFailure (writeArtifacts directory tree outcome artifacts).2 := by
  induction artifacts generalizing tree outcome with
  | nil => exact .ok _
  | cons artifact artifacts ih =>
    rw [writeArtifacts_cons]
    split
    · exact ih _ _
    · exact .error trivial

theorem FrontEnd.run_eq_of_error {μ : Type} {frontEnd : FrontEnd μ} {engine : Engine}
    (h : (frontEnd.run engine config tree).2 = .error e) (he : ¬e.IsWriteFailure) :
    (frontEnd.run engine config tree).1 = tree := by
  cases hgenerate : frontEnd.generate engine config tree with
  | error e' => simp only [run, hgenerate]
  | ok generation =>
    simp only [run, hgenerate] at h
    exact absurd
      ((failsWith_writeArtifacts config.outputDir tree {} generation.artifacts).map _ e h) he

namespace IsWritten

variable (h : IsWritten directory tree final artifacts outcome)

include h

theorem mem_written (hp : p ∈ outcome.written) :
    ∃ artifact ∈ artifacts, artifact.pathIn directory = p := by
  rw [h.minimal.2, List.mem_map] at hp
  obtain ⟨artifact, hmem, hp⟩ := hp
  exact ⟨artifact, List.mem_of_mem_filter hmem, hp⟩

theorem fileAt_of_locate {artifact : Artifact} (hmem : artifact ∈ artifacts)
    (hlocate : final.locate (artifact.pathIn directory) = .ok l) :
    final.fileAt l = some artifact.content.toUTF8 := by
  obtain ⟨l', hfile⟩ := h.complete artifact hmem
  obtain ⟨hlocate', hcontent⟩ := FileTree.file?_eq_some_iff_locate.1 hfile
  obtain rfl := Except.ok.inj (hlocate.symm.trans hlocate')
  exact hcontent

theorem isSome_fileAt (hl : (tree.fileAt l).isSome = true) : (final.fileAt l).isSome = true := by
  by_cases hwritten : ∃ artifact ∈ artifacts, final.locate (artifact.pathIn directory) = .ok l
  · obtain ⟨artifact, hmem, hlocate⟩ := hwritten
    rw [h.fileAt_of_locate hmem hlocate]
    rfl
  · rwa [h.framed l fun artifact hmem hlocate ↦ hwritten ⟨artifact, hmem, hlocate⟩]

theorem changed_iff {scope : Location → Prop} (hagree : FileTree.Agree scope final tree)
    (l : Location) :
    final.fileAt l ≠ tree.fileAt l ↔ ∃ p ∈ outcome.written, final.locate p = .ok l := by
  rw [h.minimal.2]
  simp only [List.mem_map, List.mem_filter, decide_eq_true_eq, exists_exists_and_eq_and]
  constructor
  · intro hchanged
    by_contra hnone
    refine hchanged (h.framed l fun artifact hmem hlocate ↦ hnone ⟨artifact, ⟨hmem, ?_⟩, hlocate⟩)
    rintro ⟨l', hl', hsame, -⟩
    obtain rfl := Except.ok.inj (hlocate.symm.trans hl')
    exact hchanged ((h.fileAt_of_locate hmem hlocate).trans hsame.symm)
  · rintro ⟨artifact, ⟨hmem, hdiffers⟩, hlocate⟩ hsame
    have hcontent := h.fileAt_of_locate hmem hlocate
    rw [hcontent, eq_comm] at hsame
    have hbefore := hagree.file?_of_fileAt
      (FileTree.file?_eq_some_iff_locate.2 ⟨hlocate, hcontent⟩) hsame
    exact hdiffers ⟨l, hlocate, hsame, fun _ ↦ (FileTree.file?_eq_some_iff_locate.1 hbefore).1⟩

end IsWritten

theorem exists_isWritten_of_generate
    (h : ObjectiveC.frontEnd.generate ObjectiveC.engine config tree = .ok generation) :
    ∃ k outcome, IsWritten config.outputDir tree (runAlone config tree).1
        (generation.artifacts.take k) outcome ∧
      writtenPaths (runAlone config tree).2 = outcome.written := by
  obtain ⟨units, hunits⟩ := exists_units_of_generate h
  obtain ⟨hok, herror⟩ := isWritten_of_write (ObjectiveC.hasPlainNames_of_generate hunits)
    config.outputDir tree (generation.write config.outputDir tree).1
  simp only [runAlone, FrontEnd.run, h]
  cases hwrite : (generation.write config.outputDir tree).2 with
  | ok outcome =>
    refine ⟨generation.artifacts.length, outcome, ?_, rfl⟩
    rw [List.take_length]
    exact hok outcome (Prod.ext rfl hwrite)
  | error e =>
    obtain ⟨k, _, outcome, -, rfl, hwritten⟩ := herror e (Prod.ext rfl hwrite)
    exact ⟨k, outcome, hwritten, rfl⟩

end Alone

section Steps

theorem FileTree.isSome_fileAt_serve (request : Request) (h : (tree.fileAt l).isSome = true) :
    ((tree.serve request).1.fileAt l).isSome = true := by
  cases request with
  | isFile p | canonical p | read p => exact h
  | makeDirectories p =>
    simp only [serve]
    rwa [(later_makeDirectories tree _).fileAt l not_false]
  | place p content =>
    simp only [serve]
    cases hplace : tree.place p content with
    | none => exact h
    | some placed =>
      obtain ⟨directory, name, -, -, -, hcontent, hlater⟩ := place_eq_some hplace
      by_cases hl : l = directory ++ [name]
      · rw [hl, hcontent]
        rfl
      · rwa [hlater.fileAt l hl]

theorem System.Step.isSome_fileAt (hstep : System.Step configs system system')
    (h : (system.tree.fileAt l).isSome = true) : (system'.tree.fileAt l).isSome = true := by
  cases hstep with
  | serve => exact FileTree.isSome_fileAt_serve _ h
  | report => exact h

theorem System.isSome_fileAt
    (hreach : ReflTransGen (System.Step configs) (System.start tree configs) system)
    (h : (tree.fileAt l).isSome = true) : (system.tree.fileAt l).isSome = true := by
  induction hreach with
  | refl => exact h
  | tail _ hstep ih => exact hstep.isSome_fileAt ih

end Steps

namespace SharesDirectory

variable (h : SharesDirectory tree configs place) (hd : RunsDone tree configs place done final)

include h hd

section Accepted

variable (ha : accepted? tree configs index = some (config, generation)) (hdone : index ∈ done)

include ha hdone

theorem locate_written (hp : p ∈ writtenPaths (runAlone config tree).2) :
    final.locate p = .ok l ↔ (runAlone config tree).1.locate p = .ok l := by
  obtain ⟨k, outcome, hwritten, hpaths⟩ :=
    exists_isWritten_of_generate (generate_of_accepted? ha).1
  rw [hpaths] at hp
  obtain ⟨artifact, hmem, rfl⟩ := hwritten.mem_written hp
  have hwithin := (h.allowsWriting ha (List.mem_of_mem_take hmem)).1
  have hended := hd.ended index config generation ha hdone
  have hfinal := hd.untouched.symm.endsWithin hwithin
  exact ⟨fun hl ↦ (hended.locate_of_endsWithin hfinal hl).1,
    fun hl ↦ (hended.symm.locate_of_endsWithin (hended.endsWithin hfinal) hl).1⟩

theorem exists_locate_written (hp : p ∈ writtenPaths (runAlone config tree).2) :
    ∃ l, final.locate p = .ok l := by
  have hsame := fun l ↦ h.locate_written (l := l) hd ha hdone hp
  obtain ⟨k, outcome, hwritten, hpaths⟩ :=
    exists_isWritten_of_generate (generate_of_accepted? ha).1
  rw [hpaths] at hp
  obtain ⟨artifact, hmem, rfl⟩ := hwritten.mem_written hp
  obtain ⟨l, hfile⟩ := hwritten.complete artifact hmem
  exact ⟨l, (hsame l).2 (FileTree.file?_eq_some_iff_locate.1 hfile).1⟩

theorem fileAt_of_owns (howns : Owns tree configs place index l) :
    final.fileAt l = (runAlone config tree).1.fileAt l :=
  FileTree.fileAt_eq_of_occupant?_eq
    ((hd.ended index config generation ha hdone).entry l (h.scope_of_owns howns))

theorem owns_and_changed_iff (l : Location) :
    Owns tree configs place index l ∧ final.fileAt l ≠ tree.fileAt l ↔
      ∃ p ∈ writtenPaths (runAlone config tree).2, final.locate p = .ok l := by
  have hagree := (h.runAlone_of_agree ha (.refl _ tree)).2.2
  have hlocate := fun p hp ↦ h.locate_written (p := p) (l := l) hd ha hdone hp
  obtain ⟨k, outcome, hwritten, hpaths⟩ :=
    exists_isWritten_of_generate (generate_of_accepted? ha).1
  have hchanged := hwritten.changed_iff hagree l
  rw [← hpaths] at hchanged
  constructor
  · rintro ⟨howns, hdiffers⟩
    rw [h.fileAt_of_owns hd ha hdone howns, hchanged] at hdiffers
    obtain ⟨p, hp, hl⟩ := hdiffers
    exact ⟨p, hp, (hlocate p hp).2 hl⟩
  · rintro ⟨p, hp, hl⟩
    have hdiffers := hchanged.2 ⟨p, hp, (hlocate p hp).1 hl⟩
    have howns : Owns tree configs place index l := by
      by_contra hnot
      exact hdiffers (FileTree.fileAt_eq_of_occupant?_eq (hagree.entry l hnot))
    exact ⟨howns, by rwa [h.fileAt_of_owns hd ha hdone howns]⟩

end Accepted

/-- When all runs are over, the outcomes account for all that has changed. -/
theorem accounted (hdone : ∀ index, (accepted? tree configs index).isSome = true → index ∈ done) :
    Accounted tree final (expected tree configs) := by
  have hall : ∀ outcome ∈ expected tree configs, ∀ p ∈ writtenPaths outcome.result,
      ∃ index config generation, accepted? tree configs index = some (config, generation) ∧
        outcome.result = (runAlone config tree).2 := by
    intro outcome hmem p hp
    obtain ⟨index, hindex⟩ := List.mem_iff_getElem?.1 hmem
    obtain ⟨config, checked, hconfig, hchecked, rfl⟩ := getElem?_expected_eq_some_iff.1 hindex
    cases hresult : checked.result with
    | error e =>
      rw [runOne_error hresult,
        writtenPaths_error (not_isWriteFailure_of_preview hconfig hchecked hresult)] at hp
      cases hp
    | ok generation =>
      refine ⟨index, config, generation, accepted?_eq_some_iff.2 ⟨hconfig, ?_⟩, ?_⟩
      · rw [hchecked, Option.map_some, hresult]
      · rw [runOne_ok hresult]
  refine ⟨fun l ↦ ⟨fun hchanged ↦ ?_, ?_⟩, fun outcome hmem p hp ↦ ?_, fun l hl ↦ ?_,
    hd.untouched.directory⟩
  · by_cases howned : ∃ index, Owns tree configs place index l
    · obtain ⟨index, howns⟩ := howned
      obtain ⟨config, generation, ha, -⟩ := id howns
      obtain ⟨p, hp, hl⟩ := (h.owns_and_changed_iff hd ha (hdone index (by simp [ha])) l).1
        ⟨howns, hchanged⟩
      obtain ⟨hconfig, hpreview⟩ := accepted?_eq_some_iff.1 ha
      obtain ⟨checked, hchecked, hresult⟩ := Option.map_eq_some_iff.1 hpreview
      have hindex : (expected tree configs)[index]? =
          some { input := config.input, result := (runAlone config tree).2 } :=
        getElem?_expected_eq_some_iff.2 ⟨config, checked, hconfig, hchecked, by
          rw [runOne_ok hresult]⟩
      exact ⟨_, List.mem_of_getElem? hindex, p, hp, hl⟩
    · exact absurd (FileTree.fileAt_eq_of_occupant?_eq
        (hd.untouched.entry l (not_exists.1 howned))) hchanged
  · rintro ⟨outcome, hmem, p, hp, hl⟩
    obtain ⟨index, config, generation, ha, hresult⟩ := hall outcome hmem p hp
    exact ((h.owns_and_changed_iff hd ha (hdone index (by simp [ha])) l).2
      ⟨p, hresult ▸ hp, hl⟩).2
  · obtain ⟨index, config, generation, ha, hresult⟩ := hall outcome hmem p hp
    exact h.exists_locate_written hd ha (hdone index (by simp [ha])) (hresult ▸ hp)
  · by_cases howned : ∃ index, Owns tree configs place index l
    · obtain ⟨index, howns⟩ := howned
      obtain ⟨config, generation, ha, -⟩ := id howns
      obtain ⟨k, outcome, hwritten, -⟩ :=
        exists_isWritten_of_generate (generate_of_accepted? ha).1
      rw [h.fileAt_of_owns hd ha (hdone index (by simp [ha])) howns]
      exact hwritten.isSome_fileAt hl
    · rwa [FileTree.fileAt_eq_of_occupant?_eq (hd.untouched.entry l (not_exists.1 howned))]

end SharesDirectory

theorem runs_eq_none_of_error {left : Nat → Nat} {outcome : RunOutcome RunReport}
    (hi : Independent tree configs place system left)
    (houtcome : (expected tree configs)[index]? = some outcome)
    (hresult : outcome.result = .error e) (he : ¬e.IsWriteFailure) :
    system.runs index = none := by
  refine hi.idle index ?_
  obtain ⟨config, checked, hconfig, hchecked, rfl⟩ := getElem?_expected_eq_some_iff.1 houtcome
  cases ha : accepted? tree configs index with
  | none => rfl
  | some found =>
    obtain ⟨config', generation⟩ := found
    obtain ⟨hconfig', hpreview⟩ := accepted?_eq_some_iff.1 ha
    obtain rfl := Option.some.inj (hconfig.symm.trans hconfig')
    rw [hchecked, Option.map_some, Option.some_inj] at hpreview
    rw [runOne_ok hpreview] at hresult
    exact absurd (Error.kind_eq_iff.1
      (kind_of_runAlone_error (generate_of_accepted? ha).1 hresult)) he

/-- A run that fails before it writes changes nothing, and inputs with such an outcome have no part
in what their invocation does. What has changed in the end is what the outcomes report as written,
however the requests of the runs alternate, and no file goes away at any moment. -/
theorem invocation_accounted (tree : FileTree) (configs : List RunConfig) (directory : Path)
    (hdirectory : tree.isDirectory directory = true)
    (houtput : ∀ config ∈ configs, config.outputDir = directory)
    (hmanifests : ∀ config ∈ configs, ReadsManifests tree config) :
    (∀ (config : RunConfig) (files : FileTree) e, (runAlone config files).2 = .error e →
      e.kind ≠ "write-failure" → (runAlone config files).1 = files) ∧
    Accounted tree (generate tree configs).1 (generate tree configs).2 ∧
    ∀ system, ReflTransGen (System.Step configs) (System.start tree configs) system →
      (∀ l, (tree.fileAt l).isSome = true → (system.tree.fileAt l).isSome = true) ∧
      (system.IsComplete →
        Accounted tree system.tree (system.outcomes tree configs) ∧
        ∀ (index : Nat) outcome e, (system.outcomes tree configs)[index]? = some outcome →
          outcome.result = .error e → e.kind ≠ "write-failure" →
            ∀ moment, ReflTransGen (System.Step configs) (System.start tree configs) moment →
              moment.runs index = none) := by
  obtain ⟨place, h⟩ := exists_sharesDirectory hdirectory houtput hmanifests
  refine ⟨fun config files e hresult hkind ↦ ?_, ?_, fun system hreach ↦
    ⟨fun l ↦ System.isSome_fileAt hreach, fun hcomplete ↦ ?_⟩⟩
  · exact FrontEnd.run_eq_of_error hresult (mt Error.kind_eq_iff.2 hkind)
  · obtain ⟨houtcomes, done, hd, hdone⟩ := h.generate_eq_expected
    rw [houtcomes]
    exact h.accounted hd hdone
  · obtain ⟨left, hi, hr⟩ := h.independent_of_reachable hreach
    rw [outcomes_eq_expected hr hcomplete]
    refine ⟨h.accounted (hi.runsDone hcomplete fun _ ↦ mem_acceptedIndices.2)
      fun _ ↦ mem_acceptedIndices.2, fun index outcome e houtcome hresult hkind moment hmoment ↦ ?_⟩
    obtain ⟨left', hi', -⟩ := h.independent_of_reachable hmoment
    exact runs_eq_none_of_error hi' houtcome hresult (mt Error.kind_eq_iff.2 hkind)

theorem invocation_accounted_workshop :
    workshop.isDirectory ⟨"out"⟩ = true ∧
    (∀ config ∈ workshopConfigs, config.outputDir = ⟨"out"⟩) ∧
    (∀ config ∈ workshopConfigs, ReadsManifests workshop config) ∧
    ∃ system, ReflTransGen (System.Step workshopConfigs)
        (System.start workshop workshopConfigs) system ∧ system.IsComplete ∧
      Accounted workshop system.tree (system.outcomes workshop workshopConfigs) := by
  have hdirectory : workshop.isDirectory ⟨"out"⟩ = true := by decide +kernel
  have houtput : ∀ config ∈ workshopConfigs, config.outputDir = ⟨"out"⟩ := by decide +kernel
  obtain ⟨place, h⟩ := exists_sharesDirectory hdirectory houtput readsManifests_workshop
  obtain ⟨system, hreach, hcomplete⟩ := h.exists_isComplete
  obtain ⟨-, -, hall⟩ := invocation_accounted workshop workshopConfigs ⟨"out"⟩ hdirectory houtput
    readsManifests_workshop
  exact ⟨hdirectory, houtput, readsManifests_workshop, system, hreach, hcomplete,
    ((hall system hreach).2 hcomplete).1⟩

end PairedSource
