import PairedSource.Proofs.Path.Segments

namespace PairedSource.Path

variable {p : Path} {name : String}

theorem exists_components_of_fileName? (h : p.fileName? = some name) :
    ∃ steps, p.components = steps ++ [.name name] := by
  rw [fileName?] at h
  split at h
  · rename_i last hlast
    obtain rfl := Option.some.inj h
    exact List.getLast?_eq_some_iff.1 hlast
  · cases h

theorem extension?_append {stem ext : String} (h : p.fileName? = some (stem ++ "." ++ ext))
    (hne : stem ≠ "") (hext : '.' ∉ ext.toList) : p.extension? = some ext := by
  have hpieces : Text.split '.' (stem ++ "." ++ ext) = Text.split '.' stem ++ [ext] := by
    have hsplit : Text.split '.' (stem ++ "." ++ ext) = _ := Text.split_append stem ext
    rw [hsplit, Text.split_eq_singleton hext]
  have hself : ".".intercalate (Text.split '.' stem) = stem := Text.intercalate_split stem
  simp only [extension?, h, Option.bind_eq_bind, Option.bind_some, hpieces, List.reverse_append,
    List.reverse_singleton, List.singleton_append]
  split
  · rename_i heq
    exact absurd (List.reverse_eq_nil_iff.1 (List.cons.inj heq).2) (Text.split_ne_nil stem)
  · rename_i heq
    rw [List.reverse_eq_iff.1 (List.cons.inj heq).2] at hself
    exact absurd hself.symm hne
  · rename_i heq
    rw [(List.cons.inj heq).1]
  · rename_i heq
    cases heq

theorem exists_stem_of_extension? {ext : String} (h : p.fileName? = some name)
    (hext : p.extension? = some ext) : ∃ stem, stem ≠ "" ∧ name = stem ++ "." ++ ext := by
  obtain ⟨front, last, hpieces⟩ : ∃ front last, Text.split '.' name = front ++ [last] :=
    ⟨_, _, (List.dropLast_concat_getLast (Text.split_ne_nil name)).symm⟩
  have hlast : last = ext ∧ front ≠ [] ∧ front ≠ [""] := by
    simp only [extension?, h, Option.bind_eq_bind, Option.bind_some, hpieces, List.reverse_append,
      List.reverse_singleton, List.singleton_append] at hext
    split at hext
    · cases hext
    · cases hext
    · rename_i hone hempty heq
      obtain ⟨rfl, hfront⟩ := List.cons.inj heq
      refine ⟨Option.some.inj hext, ?_, ?_⟩
      · rintro rfl
        exact hone hfront.symm
      · rintro rfl
        exact hempty hfront.symm
    · cases hext
  obtain ⟨rfl, hne, hempty⟩ := hlast
  have hname : ".".intercalate (Text.split '.' name) = name := Text.intercalate_split name
  refine ⟨".".intercalate front, fun hnil ↦ hempty ?_, ?_⟩
  · have hno : ∀ piece ∈ front, '.' ∉ piece.toList := fun piece hpiece hmem ↦
      (Text.mem_toList_of_mem_split (hpieces ▸ List.mem_append_left _ hpiece) hmem).1 rfl
    have hself : Text.split '.' (".".intercalate front) = front := Text.split_intercalate hne hno
    rw [hnil] at hself
    exact hself.symm
  · rw [← hname, hpieces, String.intercalate_append_of_ne_nil hne (by simp),
      String.intercalate_singleton]

theorem extension?_eq_toml_iff (h : p.fileName? = some name) :
    p.extension? = some "toml" ↔ ∃ stem, stem ≠ "" ∧ name = stem ++ ".toml" := by
  have hdot : ∀ stem, stem ++ "." ++ "toml" = stem ++ ".toml" := fun stem ↦
    String.append_assoc
  constructor
  · intro hext
    obtain ⟨stem, hne, rfl⟩ := exists_stem_of_extension? h hext
    exact ⟨stem, hne, hdot stem⟩
  · intro hstem
    obtain ⟨stem, hne, rfl⟩ := hstem
    rw [← hdot] at h
    exact extension?_append h hne (by decide)

end PairedSource.Path
