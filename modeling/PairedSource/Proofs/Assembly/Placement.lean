import PairedSource.Output
import PairedSource.Proofs.Assembly.FileNames
import PairedSource.Proofs.FileTree.Placing

namespace PairedSource

open Assembly FileTree

variable {generation : Generation} {artifact other : Artifact} {directory : Path}

/-- The names of the files are plain, and no two of them are the same. -/
structure Generation.HasPlainNames (generation : Generation) : Prop where
  isName : ∀ artifact ∈ generation.artifacts, isName artifact.fileName = true
  slash_notMem : ∀ artifact ∈ generation.artifacts, '/' ∉ artifact.fileName.toList
  nodup : (generation.artifacts.map Artifact.fileName).Nodup

theorem Artifact.components_pathIn (hname : isName artifact.fileName = true)
    (hslash : '/' ∉ artifact.fileName.toList) (directory : Path) :
    (artifact.pathIn directory).components = directory.components ++ [.name artifact.fileName] :=
  Path.components_join hslash (isName_iff.1 hname)

namespace Generation.HasPlainNames

variable (h : generation.HasPlainNames)

include h

theorem eq_of_fileName_eq (hmem : artifact ∈ generation.artifacts)
    (hmem' : other ∈ generation.artifacts) (heq : artifact.fileName = other.fileName) :
    artifact = other :=
  List.inj_on_of_nodup_map h.nodup hmem hmem' heq

theorem artifact?_eq (hmem : artifact ∈ generation.artifacts) :
    generation.artifact? artifact.fileName = some artifact := by
  have hsome : (generation.artifact? artifact.fileName).isSome = true :=
    List.find?_isSome.2 ⟨artifact, hmem, beq_self_eq_true _⟩
  obtain ⟨found, hfound⟩ := Option.isSome_iff_exists.1 hsome
  have hname : found.fileName = artifact.fileName := by simpa using List.find?_some hfound
  rw [hfound, h.eq_of_fileName_eq (List.mem_of_find?_eq_some hfound) hmem hname]

theorem pairwise_not_same (directory : Path) : generation.artifacts.Pairwise fun artifact other ↦
    ¬(artifact.pathIn directory).Same (other.pathIn directory) := by
  refine (List.pairwise_map.1 h.nodup).imp_of_mem ?_
  intro artifact other hmem hmem' hne hsame
  rw [Path.Same, artifact.components_pathIn (h.isName artifact hmem) (h.slash_notMem artifact hmem),
    other.components_pathIn (h.isName other hmem') (h.slash_notMem other hmem')] at hsame
  simp [hne] at hsame

end Generation.HasPlainNames

namespace ObjectiveC

variable {rules : RuleTable} {config : RunConfig} {units : List SourceUnit}

theorem hasPlainNames_of_generate
    (h : Engine.generate { language, rules } config units = .ok generation) :
    generation.HasPlainNames where
  isName _ hmem := (fileName_of_generate h hmem).1
  slash_notMem _ hmem := (fileName_of_generate h hmem).2.1
  nodup := nodup_fileName_of_generate h

/-- Whatever the keys of the units are, each file goes into the output directory itself under a
name of its own, and the types have the names that their keys give them. -/
theorem files_stay_apart (h : Engine.generate { language, rules } config units = .ok generation) :
    (∀ artifact ∈ generation.artifacts,
      (∃ stem, Identifier.isIdentifier stem = true ∧
        (artifact.fileName = stem ++ ".h" ∨ artifact.fileName = stem ++ ".m")) ∧
      '/' ∉ artifact.fileName.toList ∧
      (∀ directory : Path, (artifact.pathIn directory).components =
        directory.components ++ [.name artifact.fileName]) ∧
      (∀ (tree : FileTree) (directory : Path) (place : Location),
        tree.locate directory = .ok place → tree.occupant? place = some none →
          IsSlot tree (artifact.pathIn directory) place artifact.fileName) ∧
      generation.artifact? artifact.fileName = some artifact) ∧
    (generation.artifacts.map Artifact.fileName).Nodup ∧
    (∀ directory : Path, generation.artifacts.Pairwise fun artifact other ↦
      ¬(artifact.pathIn directory).Same (other.pathIn directory)) ∧
    List.Forall₂ (IsCanonical naming config) units generation.unitNames := by
  have hplain := hasPlainNames_of_generate h
  refine ⟨fun artifact hmem ↦ ?_, hplain.nodup, hplain.pairwise_not_same, (names_of_generate h).1⟩
  have hname := hplain.isName artifact hmem
  have hslash := hplain.slash_notMem artifact hmem
  obtain ⟨stem, c, hid, hc, hlist⟩ := exists_stem_of_generate h hmem
  refine ⟨⟨stem, hid, ?_⟩, hslash, artifact.components_pathIn hname hslash, ?_,
    hplain.artifact?_eq hmem⟩
  · rw [← String.toList_inj, ← String.toList_inj, hlist]
    rcases hc with rfl | rfl
    · left
      simp
    · right
      simp
  · intro tree directory place hlocate hdirectory
    exact isSlot_join (locate_eq_ok_iff.1 hlocate).2.2 hdirectory hslash

def strayUnits : List SourceUnit :=
  [{ key := "../x" }, { key := "a/b" }, { key := "c.d\x00" }]

theorem files_stay_apart_stray : ∃ generation,
    engine.generate { input := ⟨"stray.toml"⟩ } strayUnits = .ok generation ∧
      generation.unitNames = ["X", "AB", "CD"] ∧
      (generation.artifacts.map Artifact.fileName).Nodup := by
  have hrun : (engine.generate { input := ⟨"stray.toml"⟩ } strayUnits).toOption.map
      Generation.unitNames = some ["X", "AB", "CD"] := by decide
  obtain ⟨generation, hgeneration, hnames⟩ := Option.map_eq_some_iff.1 hrun
  have hgeneration := Except.toOption_eq_some_iff.1 hgeneration
  obtain ⟨-, hnodup, -⟩ := files_stay_apart hgeneration
  exact ⟨generation, hgeneration, hnames, hnodup⟩

end ObjectiveC

end PairedSource
