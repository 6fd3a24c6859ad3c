import PairedSource.Proofs.Concurrent.InOrder

namespace PairedSource

open Invocation Relation

variable {tree final : FileTree} {configs : List RunConfig} {directory : Path}
  {place : Nat → Location} {system : System} {index : Nat} {done : List Nat}

variable (tree configs) in
def acceptedIndices : List Nat :=
  (List.range configs.length).filter fun index ↦ (accepted? tree configs index).isSome

theorem mem_acceptedIndices :
    index ∈ acceptedIndices tree configs ↔ (accepted? tree configs index).isSome = true := by
  rw [acceptedIndices, List.mem_filter, List.mem_range, and_iff_right_iff_imp]
  intro hsome
  obtain ⟨⟨config, generation⟩, ha⟩ := Option.isSome_iff_exists.1 hsome
  exact (List.getElem?_eq_some_iff.1 (accepted?_eq_some_iff.1 ha).1).1

theorem nodup_acceptedIndices (tree : FileTree) (configs : List RunConfig) :
    (acceptedIndices tree configs).Nodup :=
  List.nodup_range.filter _

theorem exists_hasPlaces
    (hdirectories : ∀ config ∈ configs, tree.isDirectory config.outputDir = true)
    (hspelling : ∀ config ∈ configs, ∀ config' ∈ configs,
      tree.locate config.outputDir = tree.locate config'.outputDir →
        config.outputDir.Same config'.outputDir) :
    ∃ place, HasPlaces tree configs place := by
  have hplace : ∀ index : Nat, ∃ location, ∀ config, configs[index]? = some config →
      tree.locate config.outputDir = .ok location ∧ tree.occupant? location = some none := by
    intro index
    cases hconfig : configs[index]? with
    | none => exact ⟨[], fun _ h ↦ nomatch h⟩
    | some config =>
      obtain ⟨hne, hadm, location, children, hwalk, hfind⟩ :=
        FileTree.isDirectory_iff.1 (hdirectories config (List.mem_of_getElem? hconfig))
      refine ⟨location, fun other hother ↦ ?_⟩
      obtain rfl := Option.some.inj hother
      exact ⟨FileTree.locate_eq_ok_iff.2 ⟨hne, hadm, hwalk⟩,
        FileTree.occupant?_eq_directory_iff.2 ⟨children, hfind⟩⟩
  choose place hplace using hplace
  refine ⟨place, fun index config hconfig ↦ ?_, fun index config hconfig ↦ ?_,
    fun index other config config' hconfig hconfig' heq ↦ ?_⟩
  · exact (FileTree.locate_eq_ok_iff.1 (hplace index config hconfig).1).2.2
  · exact (hplace index config hconfig).2
  · refine hspelling config (List.mem_of_getElem? hconfig) config'
      (List.mem_of_getElem? hconfig') ?_
    rw [(hplace index config hconfig).1, (hplace other config' hconfig').1, heq]

theorem exists_sharesDirectory (hdirectory : tree.isDirectory directory = true)
    (houtput : ∀ config ∈ configs, config.outputDir = directory)
    (hmanifests : ∀ config ∈ configs, ReadsManifests tree config) :
    ∃ place, SharesDirectory tree configs place := by
  have hplaces : ∃ place, HasPlaces tree configs place := by
    refine exists_hasPlaces (fun config hconfig ↦ ?_) (fun config hconfig config' hconfig' _ ↦ ?_)
    · rw [houtput config hconfig, hdirectory]
    · rw [houtput config hconfig, houtput config' hconfig']
      exact Path.same_refl directory
  obtain ⟨place, h⟩ := hplaces
  exact ⟨place, h, hmanifests⟩

namespace SharesDirectory

variable (h : SharesDirectory tree configs place)

include h

theorem runsDone_of_perm {order : List Nat} (horder : order.Perm (acceptedIndices tree configs)) :
    RunsDone tree configs place order.reverse (runInOrder configs order tree) := by
  have hall : ∀ index ∈ order, (accepted? tree configs index).isSome = true :=
    fun index hindex ↦ mem_acceptedIndices.1 (horder.mem_iff.1 hindex)
  simpa using h.runsDone_runInOrder (runsDone_nil tree configs place)
    (horder.nodup_iff.2 (nodup_acceptedIndices tree configs))
    (fun _ _ ↦ List.not_mem_nil) hall

/-- One input after the other is one of the ways in which things can happen. -/
theorem runAll_eq {jobs : List (RunConfig × Preview)} {first : Nat}
    (hjobs : ∀ n, jobs[n]? = (configs.zip (preview tree configs))[first + n]?)
    (hd : RunsDone tree configs place done final) (hdone : ∀ index ∈ done, index < first) :
    (runAll final jobs).2 = jobs.map (fun job ↦ (runOne tree job.1 job.2).2) ∧
      ∃ done', RunsDone tree configs place done' (runAll final jobs).1 ∧ done ⊆ done' ∧
        ∀ index, first ≤ index → (accepted? tree configs index).isSome = true →
          index ∈ done' := by
  induction jobs generalizing first done final with
  | nil =>
    refine ⟨rfl, done, hd, List.Subset.refl _, fun index hle hsome ↦ ?_⟩
    obtain ⟨⟨config, generation⟩, ha⟩ := Option.isSome_iff_exists.1 hsome
    obtain ⟨hconfig, hpreview⟩ := accepted?_eq_some_iff.1 ha
    obtain ⟨checked, hchecked, -⟩ := Option.map_eq_some_iff.1 hpreview
    have hzip : (configs.zip (preview tree configs))[index]? = some (config, checked) :=
      List.getElem?_zip_eq_some.2 ⟨hconfig, hchecked⟩
    have hnone := hjobs (index - first)
    rw [Nat.add_sub_cancel' hle, hzip] at hnone
    cases hnone
  | cons job jobs ih =>
    obtain ⟨config, checked⟩ := job
    have hhead := (hjobs 0).symm
    rw [Nat.add_zero, List.getElem?_cons_zero, List.getElem?_zip_eq_some] at hhead
    have htail : ∀ n, jobs[n]? = (configs.zip (preview tree configs))[first + 1 + n]? := by
      intro n
      rw [Nat.add_assoc, Nat.add_comm 1 n, ← hjobs (n + 1), List.getElem?_cons_succ]
    cases hresult : checked.result with
    | error e =>
      have hrun : ∀ t, runOne t config checked =
          (t, { input := checked.input, result := .error e }) := by
        intro t
        simp only [runOne, hresult]
      obtain ⟨houtcomes, done', hd', hsub, hall⟩ :=
        ih htail hd fun index hindex ↦ (hdone index hindex).trans (Nat.lt_succ_self first)
      simp only [runAll, hrun, List.map_cons, houtcomes]
      refine ⟨trivial, done', hd', hsub, fun index hle hsome ↦ ?_⟩
      rcases Nat.eq_or_lt_of_le hle with rfl | hlt
      · obtain ⟨⟨config', generation⟩, ha⟩ := Option.isSome_iff_exists.1 hsome
        have hpreview := (accepted?_eq_some_iff.1 ha).2
        rw [hhead.2, Option.map_some, hresult] at hpreview
        cases hpreview
      · exact hall index hlt hsome
    | ok generation =>
      have ha : accepted? tree configs first = some (config, generation) :=
        accepted?_eq_some_iff.2 ⟨hhead.1, by rw [hhead.2, Option.map_some, hresult]⟩
      have hnew : first ∉ done := fun hmem ↦ Nat.lt_irrefl first (hdone first hmem)
      obtain ⟨hcons, hsame⟩ := h.runsDone_cons hd ha hnew
      obtain ⟨houtcomes, done', hd', hsub, hall⟩ := ih htail hcons fun index hindex ↦ by
        rcases List.mem_cons.1 hindex with rfl | hindex
        · exact Nat.lt_succ_self index
        · exact (hdone index hindex).trans (Nat.lt_succ_self first)
      simp only [runAll, runOne_ok hresult, List.map_cons, houtcomes, hsame]
      refine ⟨trivial, done', hd', List.Subset.trans (List.subset_cons_self _ _) hsub,
        fun index hle hsome ↦ ?_⟩
      rcases Nat.eq_or_lt_of_le hle with rfl | hlt
      · exact hsub List.mem_cons_self
      · exact hall index hlt hsome

theorem generate_eq_expected : (generate tree configs).2 = expected tree configs ∧
    ∃ done, RunsDone tree configs place done (generate tree configs).1 ∧
      ∀ index, (accepted? tree configs index).isSome = true → index ∈ done := by
  have hjobs : ∀ n, (configs.zip (preview tree configs))[n]? =
      (configs.zip (preview tree configs))[0 + n]? := fun n ↦ by rw [Nat.zero_add]
  obtain ⟨houtcomes, done, hd, -, hall⟩ :=
    h.runAll_eq hjobs (runsDone_nil tree configs place) (by simp)
  exact ⟨houtcomes, done, hd, fun index ↦ hall index (Nat.zero_le index)⟩

end SharesDirectory

/-- However the requests of the runs alternate and whichever run reports first: the invocation comes
to an end, every input has the outcome that it has alone with the first files, in its place, and the
files in the end are those that the accepted inputs leave one after the other, in any order. -/
theorem runs_independent (tree : FileTree) (configs : List RunConfig) (directory : Path)
    (hdirectory : tree.isDirectory directory = true)
    (houtput : ∀ config ∈ configs, config.outputDir = directory)
    (hmanifests : ∀ config ∈ configs, ReadsManifests tree config) :
    Acc (fun after before ↦ System.Step configs before after) (System.start tree configs) ∧
    ∀ system, ReflTransGen (System.Step configs) (System.start tree configs) system →
      (¬system.IsComplete → ∃ system', System.Step configs system system') ∧
      (system.IsComplete →
        system.outcomes tree configs = expected tree configs ∧
        (system.outcomes tree configs).map RunOutcome.input = configs.map RunConfig.input ∧
        system.outcomes tree configs = (generate tree configs).2 ∧
        system.tree.Same (generate tree configs).1 ∧
        ∀ order : List Nat, order.Perm (acceptedIndices tree configs) →
          system.tree.Same (runInOrder configs order tree)) := by
  obtain ⟨place, h⟩ := exists_sharesDirectory hdirectory houtput hmanifests
  refine ⟨h.acc_start, fun system hreach ↦ ?_⟩
  obtain ⟨left, hi, hr⟩ := h.independent_of_reachable hreach
  refine ⟨System.exists_step hi, fun hcomplete ↦ ?_⟩
  have houtcomes := outcomes_eq_expected hr hcomplete
  obtain ⟨hgenerate, done, hd, hdone⟩ := h.generate_eq_expected
  refine ⟨houtcomes, ?_, houtcomes.trans hgenerate.symm, ?_, fun order horder ↦ ?_⟩
  · rw [houtcomes, map_input_expected]
  · exact h.same_of_runsDone (hi.runsDone hcomplete hdone) hd
      fun index hsome ↦ ⟨hdone index hsome, hdone index hsome⟩
  · have hall : ∀ index, (accepted? tree configs index).isSome = true →
        index ∈ order.reverse := by
      intro index hsome
      rw [List.mem_reverse, horder.mem_iff, mem_acceptedIndices]
      exact hsome
    exact h.same_of_runsDone (hi.runsDone hcomplete hall)
      (h.runsDone_of_perm horder) fun index hsome ↦ ⟨hall index hsome, hall index hsome⟩

/-- Two inputs with one output directory, one of which includes a third file. -/
def workshop : FileTree where
  root := .directory [
    ("out", .directory []),
    ("a.toml", .file "include = [\"base.toml\"]\n[units.alpha]\n".toUTF8),
    ("b.toml", .file "[units.beta]\n".toUTF8),
    ("base.toml", .file "[units.base]\n".toUTF8)]
  workingDirectory := []

def workshopConfigs : List RunConfig :=
  [{ input := ⟨"a.toml"⟩, outputDir := ⟨"out"⟩ }, { input := ⟨"b.toml"⟩, outputDir := ⟨"out"⟩ }]

theorem readsManifests_workshop :
    ∀ config ∈ workshopConfigs, ReadsManifests workshop config := by
  have hfirst : ReadsManifests workshop { input := ⟨"a.toml"⟩, outputDir := ⟨"out"⟩ } :=
    readsManifests_of_everyInclude
      [⟨⟨"a.toml"⟩, ["a.toml"]⟩, ⟨⟨"base.toml"⟩, ["base.toml"]⟩] (by decide +kernel)
      (by decide +kernel) (by decide +kernel) (by decide +kernel)
  have hsecond : ReadsManifests workshop { input := ⟨"b.toml"⟩, outputDir := ⟨"out"⟩ } :=
    readsManifests_of_everyInclude [⟨⟨"b.toml"⟩, ["b.toml"]⟩] (by decide +kernel)
      (by decide +kernel) (by decide +kernel) (by decide +kernel)
  intro config hconfig
  rcases List.mem_cons.1 hconfig with rfl | hconfig
  · exact hfirst
  · obtain rfl := List.mem_singleton.1 hconfig
    exact hsecond

theorem runs_independent_workshop :
    workshop.isDirectory ⟨"out"⟩ = true ∧
    (∀ config ∈ workshopConfigs, config.outputDir = ⟨"out"⟩) ∧
    (∀ config ∈ workshopConfigs, ReadsManifests workshop config) ∧
    ∃ system, ReflTransGen (System.Step workshopConfigs)
        (System.start workshop workshopConfigs) system ∧ system.IsComplete ∧
      (system.outcomes workshop workshopConfigs).map RunOutcome.input =
        [⟨"a.toml"⟩, ⟨"b.toml"⟩] := by
  have hdirectory : workshop.isDirectory ⟨"out"⟩ = true := by decide +kernel
  have houtput : ∀ config ∈ workshopConfigs, config.outputDir = ⟨"out"⟩ := by decide +kernel
  obtain ⟨place, h⟩ := exists_sharesDirectory hdirectory houtput readsManifests_workshop
  obtain ⟨system, hreach, hcomplete⟩ := h.exists_isComplete
  have hall := (runs_independent workshop workshopConfigs ⟨"out"⟩ hdirectory houtput
    readsManifests_workshop).2 system hreach
  exact ⟨hdirectory, houtput, readsManifests_workshop, system, hreach, hcomplete,
    (hall.2 hcomplete).2.1⟩

end PairedSource
