import PairedSource.Proofs.Assembly.FileNames
import PairedSource.Proofs.Concurrent.Running
import PairedSource.Proofs.Invocation.SharedOutput

namespace PairedSource

open Manifest Invocation

/-- The input of a run and the includes of everything that it may load are called manifests. -/
structure ReadsManifests (tree : FileTree) (config : RunConfig) : Prop where
  input : ∃ front, config.input.text = front ++ ".toml"
  includes : ∀ stop above, Chain tree config.searchPath config.input (stop :: above) →
    ∀ manifest models, readAt tree stop.location = some (manifest, models) →
      ∀ target ∈ manifest.includes, ∃ front, target = front ++ ".toml"

theorem ReadsManifests.candidates {tree : FileTree} {config : RunConfig}
    (h : ReadsManifests tree config) {stop : Stop} {above : List Stop} {manifest : Manifest}
    {models : List (UnitModel Entry)} {target : String} {source : SourceText} {path : Path}
    (hchain : Chain tree config.searchPath config.input (stop :: above))
    (hread : readAt tree stop.location = some (manifest, models))
    (htarget : target ∈ manifest.includes)
    (hpath : path ∈ candidates config.searchPath source target) :
    ∃ front, path.text = front ++ ".toml" := by
  obtain ⟨front, hfront⟩ := h.includes stop above hchain manifest models hread target htarget
  have hjoin : ∀ p : Path, ∃ front, (p.join ⟨target⟩).text = front ++ ".toml" := by
    intro p
    obtain ⟨before, hbefore⟩ := Path.exists_text_join p ⟨target⟩
    exact ⟨before ++ front, by rw [hbefore, hfront, String.append_assoc]⟩
  rw [Manifest.candidates, List.mem_cons] at hpath
  rcases hpath with rfl | hpath
  · exact hjoin _
  · obtain ⟨directory, -, rfl⟩ := by simpa using hpath
    exact hjoin _

theorem exists_front_of_isSuffixOf {s : String} (h : ".toml".toList.isSuffixOf s.toList = true) :
    ∃ front, s = front ++ ".toml" := by
  obtain ⟨front, hfront⟩ := List.isSuffixOf_iff_suffix.1 h
  refine ⟨String.ofList front, ?_⟩
  rw [← String.toList_inj, String.toList_append, String.toList_ofList, hfront]

theorem readsManifests_of_everyInclude {tree : FileTree} {config : RunConfig} (stops : List Stop)
    (hinput : ".toml".toList.isSuffixOf config.input.text.toList = true)
    (hroot : (tree.file? config.input).all fun found ↦ ⟨config.input, found.1⟩ ∈ stops)
    (hclosed : everyInclude tree stops (leadsInto tree config.searchPath stops) = true)
    (hall : everyInclude tree stops
      (fun _ target ↦ ".toml".toList.isSuffixOf target.toList) = true) :
    ReadsManifests tree config where
  input := exists_front_of_isSuffixOf hinput
  includes _ _ hchain _ _ hread _ htarget := exists_front_of_isSuffixOf
    (hchain.property_of_everyInclude hroot hclosed hall hread htarget)

variable (tree : FileTree) (configs : List RunConfig) (place : Nat → Location)

/-- Runs whose output directories are there, each in its place. They share a directory only where
they spell it with the same steps. -/
structure HasPlaces : Prop where
  walk : ∀ index config, configs[index]? = some config →
    tree.walk (tree.start config.outputDir) config.outputDir.segments = .ok (place index)
  isDirectory : ∀ index config, configs[index]? = some config →
    tree.occupant? (place index) = some none
  spelling : ∀ index other config config', configs[index]? = some config →
    configs[other]? = some config' → place index = place other →
      config.outputDir.Same config'.outputDir

structure SharesDirectory : Prop extends HasPlaces tree configs place where
  manifests : ∀ config ∈ configs, ReadsManifests tree config

def accepted? (index : Nat) : Option (RunConfig × Generation) :=
  match configs[index]?, (preview tree configs)[index]?.map RunOutcome.result with
  | some config, some (.ok generation) => some (config, generation)
  | _, _ => none

/-- The location of an artifact of an accepted input. -/
def Owns (index : Nat) (location : Location) : Prop :=
  ∃ config generation, accepted? tree configs index = some (config, generation) ∧
    ∃ artifact ∈ generation.artifacts, location = place index ++ [artifact.fileName]

/-- All locations but those of the artifacts of other inputs. -/
def Scope (index : Nat) (location : Location) : Prop :=
  ∀ other ≠ index, ¬Owns tree configs place other location

variable {tree configs place} {index other : Nat} {config : RunConfig}
  {generation : Generation}

section Accepted

theorem accepted?_eq_some_iff : accepted? tree configs index = some (config, generation) ↔
    configs[index]? = some config ∧
      (preview tree configs)[index]?.map RunOutcome.result = some (.ok generation) := by
  unfold accepted?
  split
  · rename_i hconfig hpreview
    simp [hconfig, hpreview]
  · rename_i hnot
    simp only [reduceCtorEq, false_iff, not_and]
    exact fun hconfig hpreview ↦ hnot _ _ hconfig hpreview

variable (tree configs) in
def drafts : List (Path × Preview) :=
  configs.map fun config ↦ (config.outputDir,
    { input := config.input
      result := ObjectiveC.frontEnd.generate ObjectiveC.engine config tree })

theorem preview_eq : preview tree configs = rejectShared (drafts tree configs) := rfl

theorem getElem?_drafts (h : configs[index]? = some config) (tree : FileTree) :
    (drafts tree configs)[index]? = some (config.outputDir,
      { input := config.input
        result := ObjectiveC.frontEnd.generate ObjectiveC.engine config tree }) := by
  rw [drafts, List.getElem?_map, h]
  rfl

theorem generate_of_accepted? (h : accepted? tree configs index = some (config, generation)) :
    ObjectiveC.frontEnd.generate ObjectiveC.engine config tree = .ok generation ∧
      ¬IsShared (drafts tree configs) index := by
  obtain ⟨hconfig, hpreview⟩ := accepted?_eq_some_iff.1 h
  rw [preview_eq] at hpreview
  by_cases hshared : IsShared (drafts tree configs) index
  · obtain ⟨_, preview, _, _, _, _, _, -, -, -, hafter, -⟩ :=
      getElem?_rejectShared_of_isShared hshared
    rw [hafter] at hpreview
    cases hpreview
  · rw [getElem?_rejectShared_of_not_isShared hshared, getElem?_drafts hconfig tree] at hpreview
    exact ⟨Option.some.inj hpreview, hshared⟩

theorem writes_of_generate (hconfig : configs[index]? = some config)
    (h : ObjectiveC.frontEnd.generate ObjectiveC.engine config tree = .ok generation)
    {artifact : Artifact} (hmem : artifact ∈ generation.artifacts) {path : Path}
    (hsame : (artifact.pathIn config.outputDir).Same path) :
    Writes (drafts tree configs) index path :=
  ⟨config.outputDir, _, generation, getElem?_drafts hconfig tree, h, artifact, hmem, hsame⟩

theorem exists_units_of_generate
    (h : ObjectiveC.frontEnd.generate ObjectiveC.engine config tree = .ok generation) :
    ∃ units, ObjectiveC.engine.generate config units = .ok generation := by
  simp only [FrontEnd.generate, Except.bind_eq_ok_iff] at h
  obtain ⟨_, -, _, -, units, -, h⟩ := h
  exact ⟨units, h⟩

theorem fileName_of_frontEnd
    (h : ObjectiveC.frontEnd.generate ObjectiveC.engine config tree = .ok generation)
    {artifact : Artifact} (hmem : artifact ∈ generation.artifacts) :
    FileTree.isName artifact.fileName = true ∧ '/' ∉ artifact.fileName.toList ∧
      ∀ front, artifact.fileName ≠ front ++ ".toml" := by
  obtain ⟨units, hunits⟩ := exists_units_of_generate h
  exact ObjectiveC.fileName_of_generate hunits hmem

theorem fileName_of_accepted? (h : accepted? tree configs index = some (config, generation))
    {artifact : Artifact} (hmem : artifact ∈ generation.artifacts) :
    FileTree.isName artifact.fileName = true ∧ '/' ∉ artifact.fileName.toList ∧
      ∀ front, artifact.fileName ≠ front ++ ".toml" :=
  fileName_of_frontEnd (generate_of_accepted? h).1 hmem

end Accepted

def IsManifestLocation (location : Location) : Prop :=
  ∃ directory stem, location = directory ++ [stem ++ ".toml"]

theorem endsWithin_of_text (tree : FileTree) {p : Path} (hp : ∃ front, p.text = front ++ ".toml") :
    FileTree.EndsWithin IsManifestLocation tree p := by
  obtain ⟨front, hp⟩ := hp
  obtain ⟨before, stem, hseg⟩ := Path.exists_segments_of_text (by decide) hp
  have hlength : ∀ s : String, s.toList.length < 5 → stem ++ ".toml" ≠ s := by
    intro s hs heq
    subst heq
    rw [String.toList_append, List.length_append] at hs
    exact absurd hs (Nat.not_lt.2 (Nat.le_add_left 5 stem.toList.length))
  refine ⟨before, stem ++ ".toml", hseg, ?_, fun directory _ ↦ ⟨directory, stem, rfl⟩⟩
  exact FileTree.isName_iff.2
    ⟨hlength "" (by decide), hlength "." (by decide), hlength ".." (by decide)⟩

theorem IsManifestLocation.ne_append {location directory : Location} {name : String}
    (h : IsManifestLocation location) (hname : ∀ front, name ≠ front ++ ".toml") :
    location ≠ directory ++ [name] := by
  obtain ⟨_, stem, rfl⟩ := h
  intro heq
  have hlast : stem ++ ".toml" = name := by simpa using (List.append_inj' heq rfl).2
  exact hname stem hlast.symm

theorem IsManifestLocation.scope {location : Location} (h : IsManifestLocation location)
    (index : Nat) : Scope tree configs place index location := by
  rintro other - ⟨config, generation, ha, artifact, hmem, heq⟩
  exact h.ne_append (fileName_of_accepted? ha hmem).2.2 heq

theorem allowsReading_of_text {p : Path} (hp : ∃ front, p.text = front ++ ".toml") :
    AllowsReading (FileTree.Allows tree (Scope tree configs place index)
      (Owns tree configs place index)) p := by
  have hwithin : FileTree.EndsWithin (Scope tree configs place index) tree p :=
    (endsWithin_of_text tree hp).mono fun _ hl ↦ hl.scope index
  exact ⟨hwithin, hwithin, hwithin⟩

namespace HasPlaces

variable (h : HasPlaces tree configs place)

include h

theorem isShared_of_location {location : Location} {config' : RunConfig} {generation' : Generation}
    {artifact artifact' : Artifact} (hne : other ≠ index)
    (hconfig : configs[index]? = some config) (hconfig' : configs[other]? = some config')
    (hgenerate : ObjectiveC.frontEnd.generate ObjectiveC.engine config tree = .ok generation)
    (hgenerate' : ObjectiveC.frontEnd.generate ObjectiveC.engine config' tree = .ok generation')
    (hmem : artifact ∈ generation.artifacts) (hmem' : artifact' ∈ generation'.artifacts)
    (hlocation : location = place index ++ [artifact.fileName])
    (hlocation' : location = place other ++ [artifact'.fileName]) :
    IsShared (drafts tree configs) index := by
  obtain ⟨hplace, hlast⟩ := List.append_inj' (hlocation.symm.trans hlocation') rfl
  have hfile : artifact.fileName = artifact'.fileName := by simpa using hlast
  obtain ⟨hname, hslash, -⟩ := fileName_of_frontEnd hgenerate hmem
  have hsame : (artifact'.pathIn config'.outputDir).Same (artifact.pathIn config.outputDir) := by
    rw [Artifact.pathIn, Artifact.pathIn, ← hfile]
    exact (h.spelling index other config config' hconfig hconfig' hplace).symm.join hslash
      (FileTree.isName_iff.1 hname)
  exact ⟨_, other, hne, writes_of_generate hconfig hgenerate hmem (Path.same_refl _),
    writes_of_generate hconfig' hgenerate' hmem' hsame⟩

theorem scope_of_owns {location : Location} (howns : Owns tree configs place index location) :
    Scope tree configs place index location := by
  obtain ⟨config, generation, ha, artifact, hmem, hlocation⟩ := howns
  rintro other hne ⟨config', generation', ha', artifact', hmem', hlocation'⟩
  exact (generate_of_accepted? ha).2 (h.isShared_of_location hne (accepted?_eq_some_iff.1 ha).1
    (accepted?_eq_some_iff.1 ha').1 (generate_of_accepted? ha).1 (generate_of_accepted? ha').1
    hmem hmem' hlocation hlocation')

theorem isSlot_of_accepted? (ha : accepted? tree configs index = some (config, generation))
    {artifact : Artifact} (hmem : artifact ∈ generation.artifacts) :
    FileTree.IsSlot tree (artifact.pathIn config.outputDir) (place index) artifact.fileName := by
  have hconfig := (accepted?_eq_some_iff.1 ha).1
  exact FileTree.isSlot_join (h.walk index config hconfig) (h.isDirectory index config hconfig)
    (fileName_of_accepted? ha hmem).2.1

theorem allowsWriting (ha : accepted? tree configs index = some (config, generation))
    {artifact : Artifact} (hmem : artifact ∈ generation.artifacts) :
    AllowsWriting (FileTree.Allows tree (Scope tree configs place index)
      (Owns tree configs place index)) (artifact.pathIn config.outputDir) := by
  have hname := (fileName_of_accepted? ha hmem).1
  have howns : Owns tree configs place index (place index ++ [artifact.fileName]) :=
    ⟨config, generation, ha, artifact, hmem, rfl⟩
  have hslot := h.isSlot_of_accepted? ha hmem
  have hwrite : ∃ directory name,
      FileTree.IsSlot tree (artifact.pathIn config.outputDir) directory name ∧
        FileTree.isName name = true ∧ Owns tree configs place index (directory ++ [name]) :=
    ⟨place index, artifact.fileName, hslot, hname, howns⟩
  refine ⟨?_, hwrite, fun _ ↦ hwrite⟩
  obtain ⟨front, hseg, -⟩ := hslot.front
  refine ⟨front, artifact.fileName, hseg, hname, fun directory hslot' ↦ ?_⟩
  rw [hslot'.unique hslot]
  exact h.scope_of_owns howns

end HasPlaces

namespace SharesDirectory

variable (h : SharesDirectory tree configs place)

include h

theorem allowsLoading (hmem : config ∈ configs) :
    AllowsLoading tree config (FileTree.Allows tree (Scope tree configs place index)
      (Owns tree configs place index)) where
  input := allowsReading_of_text (h.manifests config hmem).input
  includes _ _ hchain _ _ hread _ htarget _ _ _ hpath :=
    allowsReading_of_text ((h.manifests config hmem).candidates hchain hread htarget hpath)

/-- An accepted run, alone with the files as they are first, stays within its scope and writes to
its own places only. -/
theorem reaches (ha : accepted? tree configs index = some (config, generation)) :
    Reaches config (FileTree.Allows tree (Scope tree configs place index)
      (Owns tree configs place index)) tree .opening
      (ObjectiveC.frontEnd.run ObjectiveC.engine config tree).1
      (.finished (ObjectiveC.frontEnd.run ObjectiveC.engine config tree).2) := by
  refine reaches_run (h.allowsLoading (List.mem_of_getElem? (accepted?_eq_some_iff.1 ha).1)) ?_
  intro generation' hgenerate artifact hmem
  obtain rfl := Except.ok.inj ((generate_of_accepted? ha).1.symm.trans hgenerate)
  exact h.allowsWriting ha hmem

end SharesDirectory

end PairedSource
