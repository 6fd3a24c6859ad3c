import PairedSource.ObjectiveC
import PairedSource.Proofs.Assembly.Stages
import PairedSource.Proofs.FileTree.Walk
import PairedSource.Proofs.Naming.Identifiers

namespace PairedSource

namespace Assembly

def fileNames (language : Language) (config : RunConfig) (stem : String) : List String :=
  (if config.skipDeclaration then [] else [language.declarationFile stem]) ++
    [language.definitionFile stem]

theorem map_fileName_pair (language : Language) (config : RunConfig) (stem : String)
    (units : List AssembledUnit) :
    (pair language config stem units).artifacts.map Artifact.fileName =
      fileNames language config stem := by
  by_cases h : config.skipDeclaration = true <;>
    simp [pair, ArtifactPair.artifacts, fileNames, h]

end Assembly

open Assembly

variable {config : RunConfig} {units : List SourceUnit} {generation : Generation}

/-- What is generated has the files of some stems: the names of the units, or the one name for all
of them. -/
theorem exists_stems_of_generate {engine : Engine}
    (h : engine.generate config units = .ok generation) :
    ∃ stems : List String, stems.Nodup ∧
      generation.artifacts.map Artifact.fileName =
        stems.flatMap (fileNames engine.language config) ∧
      ∀ stem ∈ stems, Identifier.isIdentifier stem = true ∨
        ∃ key, engine.language.naming.typeName key config.namePrefix = .ok stem := by
  obtain ⟨assembled, hassembled, hlayout⟩ := Engine.generate_eq_ok_iff.1 h
  obtain ⟨-, hunits, hnodup⟩ := Engine.assemble_eq_ok_iff.1 hassembled
  rcases layOut_eq_ok_iff.1 hlayout with ⟨-, hid, rfl⟩ | ⟨-, rfl⟩
  · refine ⟨[config.aggregateName], by simp, ?_, fun stem hstem ↦ ?_⟩
    · simp [Generation.artifacts, map_fileName_pair]
    · rw [List.mem_singleton.1 hstem]
      exact .inl hid
  · refine ⟨assembled.map AssembledUnit.name, (List.nodup_append.1 hnodup).1, ?_,
      fun stem hstem ↦ ?_⟩
    · simp only [Generation.artifacts, List.map_flatMap, List.flatMap_map, map_fileName_pair]
    · obtain ⟨a, ha, rfl⟩ := List.mem_map.1 hstem
      obtain ⟨unit, -, hunit⟩ := hunits.exists_of_mem_right ha
      exact .inr ⟨unit.key, hunit.1⟩

namespace ObjectiveC

variable {rules : RuleTable} {stem name : String} {artifact : Artifact}

theorem isIdentifier_of_generate
    (h : Engine.generate { language, rules } config units = .ok generation) :
    ∃ stems : List String, stems.Nodup ∧
      generation.artifacts.map Artifact.fileName = stems.flatMap (fileNames language config) ∧
      ∀ stem ∈ stems, Identifier.isIdentifier stem = true := by
  obtain ⟨stems, hnodup, hnames, hall⟩ := exists_stems_of_generate h
  refine ⟨stems, hnodup, hnames, fun stem hstem ↦ ?_⟩
  rcases hall stem hstem with hid | ⟨key, hkey⟩
  · exact hid
  · exact NamingPolicy.isIdentifier_typeName rfl hkey

theorem toList_of_mem_fileNames (h : name ∈ fileNames language config stem) :
    ∃ c, (c = 'h' ∨ c = 'm') ∧ name.toList = stem.toList ++ ['.', c] := by
  have hcases : name = stem ++ "." ++ "h" ∨ name = stem ++ "." ++ "m" := by
    rw [fileNames, List.mem_append, List.mem_singleton] at h
    rcases h with h | h
    · split at h
      · cases h
      · exact .inl (List.mem_singleton.1 h)
    · exact .inr h
  rcases hcases with rfl | rfl
  · exact ⟨'h', .inl rfl, by simp⟩
  · exact ⟨'m', .inr rfl, by simp⟩

theorem nodup_fileNames (config : RunConfig) (stem : String) :
    (fileNames language config stem).Nodup := by
  have hne : language.declarationFile stem ≠ language.definitionFile stem := by
    intro heq
    have := congrArg String.toList heq
    simp [Language.declarationFile, Language.definitionFile, language] at this
  unfold fileNames
  split
  · simp
  · simpa using hne

theorem nodup_fileName_of_generate
    (h : Engine.generate { language, rules } config units = .ok generation) :
    (generation.artifacts.map Artifact.fileName).Nodup := by
  obtain ⟨stems, hnodup, hnames, -⟩ := isIdentifier_of_generate h
  rw [hnames, List.nodup_flatMap]
  refine ⟨fun stem _ ↦ nodup_fileNames config stem, hnodup.imp fun {a b} hab ↦ ?_⟩
  intro name ha hb
  obtain ⟨c, -, ha⟩ := toList_of_mem_fileNames ha
  obtain ⟨d, -, hb⟩ := toList_of_mem_fileNames hb
  have happend := List.append_inj_left' (ha.symm.trans hb) rfl
  exact hab (String.toList_inj.1 happend)

theorem exists_stem_of_generate
    (h : Engine.generate { language, rules } config units = .ok generation)
    (hmem : artifact ∈ generation.artifacts) :
    ∃ (stem : String) (c : Char), Identifier.isIdentifier stem = true ∧ (c = 'h' ∨ c = 'm') ∧
      artifact.fileName.toList = stem.toList ++ ['.', c] := by
  obtain ⟨stems, -, hnames, hall⟩ := isIdentifier_of_generate h
  have hname : artifact.fileName ∈ stems.flatMap (fileNames language config) := by
    rw [← hnames]
    exact List.mem_map_of_mem hmem
  obtain ⟨stem, hstem, hname⟩ := List.mem_flatMap.1 hname
  obtain ⟨c, hc, hlist⟩ := toList_of_mem_fileNames hname
  exact ⟨stem, c, hall stem hstem, hc, hlist⟩

theorem fileName_of_generate
    (h : Engine.generate { language, rules } config units = .ok generation)
    (hmem : artifact ∈ generation.artifacts) :
    FileTree.isName artifact.fileName = true ∧ '/' ∉ artifact.fileName.toList ∧
      ∀ front, artifact.fileName ≠ front ++ ".toml" := by
  obtain ⟨stem, c, hid, hc, hlist⟩ := exists_stem_of_generate h hmem
  refine ⟨?_, ?_, fun front heq ↦ ?_⟩
  · have hne : ∀ s : String, s.toList.length < 3 → artifact.fileName ≠ s := by
      intro s hs heq
      subst heq
      obtain ⟨d, ds, hd, -⟩ := Identifier.isIdentifier_iff.1 hid
      simp [hlist, hd] at hs
      omega
    exact FileTree.isName_iff.2
      ⟨hne "" (by decide), hne "." (by decide), hne ".." (by decide)⟩
  · rw [hlist, List.mem_append]
    intro h
    rcases h with hslash | hslash
    · exact absurd (Identifier.isContinuation_of_mem hid hslash) (by decide)
    · rcases hc with rfl | rfl <;> exact absurd hslash (by decide)
  · have hlast := congrArg (fun s : String ↦ s.toList.getLast?) heq
    simp only [hlist, String.toList_append] at hlast
    rcases hc with rfl | rfl <;> simp at hlast

end ObjectiveC

end PairedSource
