import PairedSource.Proofs.Assembly.FileNames
import PairedSource.Proofs.Include.Reading
import PairedSource.Proofs.Toml.Leading

namespace PairedSource

variable {config : RunConfig} {artifact : Artifact}

theorem SourceText.ofBytes_toUTF8 (path : Path) (text : String) :
    SourceText.ofBytes path text.toUTF8 = .ok ⟨path, text⟩ := by
  have htext : String.fromUTF8? text.toUTF8 = some text := dif_pos text.isValidUTF8
  rw [SourceText.ofBytes, htext]

namespace Assembly

theorem content_of_mem_pair {language : Language} {stem : String} {units : List AssembledUnit}
    (h : artifact ∈ (pair language config stem units).artifacts) :
    ∃ rest, artifact.content = banner language config ++ rest := by
  rw [ArtifactPair.artifacts, List.mem_append, Option.mem_toList, List.mem_singleton] at h
  rcases h with h | rfl
  · simp only [pair] at h
    split at h
    · cases h
    · obtain rfl := Option.some.inj h
      exact ⟨_, String.append_assoc ..⟩
  · exact ⟨_, String.append_assoc ..⟩

end Assembly

open Assembly

theorem content_of_generate {engine : Engine} {units : List SourceUnit} {generation : Generation}
    (h : engine.generate config units = .ok generation) (hmem : artifact ∈ generation.artifacts) :
    ∃ rest, artifact.content = banner engine.language config ++ rest := by
  obtain ⟨assembled, -, hlayout⟩ := Engine.generate_eq_ok_iff.1 h
  rcases layOut_eq_ok_iff.1 hlayout with ⟨-, -, rfl⟩ | ⟨-, rfl⟩
  · rw [Generation.artifacts, List.flatMap_singleton] at hmem
    exact content_of_mem_pair hmem
  · rw [Generation.artifacts, List.flatMap_map, List.mem_flatMap] at hmem
    obtain ⟨unit, -, hmem⟩ := hmem
    exact content_of_mem_pair hmem

namespace ObjectiveC

def IsGenerated (content : ByteArray) : Prop :=
  ∃ text : String, text.toList.head? = some '/' ∧ content = text.toUTF8

theorem isGenerated_content {units : List SourceUnit} {generation : Generation}
    (h : engine.generate config units = .ok generation) (hmem : artifact ∈ generation.artifacts) :
    IsGenerated artifact.content.toUTF8 := by
  obtain ⟨rest, hcontent⟩ := content_of_generate h hmem
  refine ⟨artifact.content, ?_, rfl⟩
  have hbanner : (banner language config).toList.head? = some '/' := by
    simp [banner, CodeBuilder.comment, CodeBuilder.line, CodeBuilder.blank, CodeBuilder.margin,
      language]
  rw [hcontent, String.toList_append, List.head?_append]
  exact Option.or_eq_some_iff.2 (.inl hbanner)

/-- No generated file can be read as a manifest. -/
theorem exists_error_of_isGenerated {content : ByteArray} (h : IsGenerated content) (path : Path) :
    ∃ e, Manifest.readFile path content = .error e := by
  obtain ⟨text, hhead, rfl⟩ := h
  obtain ⟨cs, hcs⟩ := List.head?_eq_some_iff.1 hhead
  obtain ⟨fault, hfault⟩ := Toml.Document.exists_error_of_head hcs rfl rfl (by decide)
  have hparse : Manifest.parse ⟨path, text⟩ =
      .error (.invalidInput path (.malformed fault) none) := by
    rw [Manifest.parse, Toml.decode, hfault]
  rw [Manifest.readFile, SourceText.ofBytes_toUTF8, Except.ok_bind, hparse]
  exact ⟨_, rfl⟩

end ObjectiveC

end PairedSource
