import PairedSource.Manifest.Include
import PairedSource.Proofs.FileTree.Lookup

open Except

namespace PairedSource

/-- What a text means as a document does not depend on where it was read. -/
theorem Toml.toOption_decode {α : Type} (p q : Path) (text : String) (reader : Table → Typed α) :
    (decode ⟨p, text⟩ reader).toOption = (decode ⟨q, text⟩ reader).toOption := by
  simp only [decode]
  cases Document.read text with
  | error => rfl
  | ok document =>
    cases hr : reader document.root <;> simp [hr, Except.toOption]

theorem Toml.fault_of_decode {α : Type} {source : SourceText} {reader : Table → Typed α}
    {e : Error} (h : decode source reader = .error e) :
    ∃ fault span, e = .invalidInput source.path fault span ∧
      ∀ path, fault ≠ .includeCycle path := by
  unfold decode at h
  split at h
  · rw [Except.error.injEq] at h
    exact ⟨_, _, h.symm, by simp⟩
  · split at h
    · rw [Except.error.injEq] at h
      refine ⟨_, _, h.symm, fun path ↦ ?_⟩
      unfold Document.inputFault
      split <;> simp
    · cases h

namespace Manifest

theorem toOption_parse (p q : Path) (text : String) :
    (parse ⟨p, text⟩).toOption = (parse ⟨q, text⟩).toOption :=
  Toml.toOption_decode p q text _

theorem toOption_toModels (source source' : SourceText) (manifest : Manifest) :
    (toModels source manifest).toOption = (toModels source' manifest).toOption := by
  have hcolor : ∀ unit entry, (colorMember source unit entry).toOption =
      (colorMember source' unit entry).toOption := by
    rintro unit ⟨key, value⟩
    simp only [colorMember]
    cases Color.read? value <;> rfl
  rw [toModels, toModels, toOption_mapM, toOption_mapM]
  congr 1
  funext ⟨key, spec⟩
  simp only [toModel, toOption_bind, toOption_mapM, hcolor]

theorem fault_of_toModels {source : SourceText} {manifest : Manifest} {e : Error}
    (h : toModels source manifest = .error e) :
    ∃ fault span, e = .invalidInput source.path fault span ∧
      ∀ path, fault ≠ .includeCycle path := by
  obtain ⟨⟨key, spec⟩, -, h⟩ := exists_of_mapM_eq_error h
  rw [toModel, bind_eq_error_iff] at h
  rcases h with h | ⟨colors, -, h⟩
  · obtain ⟨⟨name, value⟩, -, h⟩ := exists_of_mapM_eq_error h
    simp only [colorMember] at h
    split at h
    · cases h
    · rw [Except.error.injEq] at h
      exact ⟨_, _, h.symm, by simp⟩
  · cases h

variable (tree : FileTree)

/-- The manifest at a location with its models, if the file there is in order: it can be read, it
is a manifest, and all its colours are colours. -/
def readAt (location : Location) : Option (Manifest × List (UnitModel Entry)) := do
  let content ← tree.fileAt location
  let text ← String.fromUTF8? content
  let manifest ← (parse ⟨⟨""⟩, text⟩).toOption
  let models ← (manifest.toModels ⟨⟨""⟩, text⟩).toOption
  return (manifest, models)

def modelsAt (location : Location) : List (UnitModel Entry) :=
  ((readAt tree location).map Prod.snd).getD []

def readFile (path : Path) (content : ByteArray) :
    Except Error (SourceText × Manifest × List (UnitModel Entry)) := do
  let source ← SourceText.ofBytes path content
  let manifest ← parse source
  let models ← manifest.toModels source
  return (source, manifest, models)

variable {tree} {path : Path} {location : Location} {content : ByteArray}

theorem readAt_eq (h : tree.fileAt location = some content) :
    readAt tree location = (readFile path content).toOption.map Prod.snd := by
  unfold readAt readFile SourceText.ofBytes
  cases hutf : String.fromUTF8? content with
  | none => simp [h, hutf, Except.toOption, bind, Except.bind]
  | some text =>
    have hparse := toOption_parse ⟨""⟩ path text
    cases hp : parse ⟨path, text⟩ with
    | error e => simp_all [Except.toOption, bind, Except.bind]
    | ok manifest =>
      have hmodels := toOption_toModels ⟨⟨""⟩, text⟩ ⟨path, text⟩ manifest
      cases hm : toModels ⟨path, text⟩ manifest <;>
        simp_all [Except.toOption, bind, Except.bind, pure, Except.pure]

theorem readAt_of_readFile {source : SourceText} {manifest : Manifest}
    {models : List (UnitModel Entry)} (h : tree.fileAt location = some content)
    (hread : readFile path content = .ok (source, manifest, models)) :
    source.path = path ∧ readAt tree location = some (manifest, models) := by
  refine ⟨?_, by rw [readAt_eq h, hread]; rfl⟩
  simp only [readFile, SourceText.ofBytes, bind_eq_ok_iff] at hread
  obtain ⟨source', hsource, manifest', -, models', -, hpair⟩ := hread
  split at hsource
  · obtain rfl := Except.ok.inj hsource
    obtain ⟨rfl, -⟩ := Prod.mk.inj (Except.ok.inj hpair)
    rfl
  · cases hsource

theorem exists_readFile {manifest : Manifest} {models : List (UnitModel Entry)}
    (h : tree.fileAt location = some content)
    (hread : readAt tree location = some (manifest, models)) (path : Path) :
    ∃ source : SourceText, source.path = path ∧
      readFile path content = .ok (source, manifest, models) := by
  have heq : readAt tree location = (readFile path content).toOption.map Prod.snd := readAt_eq h
  rw [heq] at hread
  obtain ⟨⟨source, found⟩, hok, rfl⟩ := Option.map_eq_some_iff.1 hread
  have hok := Except.toOption_eq_some_iff.1 hok
  exact ⟨source, (readAt_of_readFile h hok).1, hok⟩

theorem fault_of_readFile {e : Error} (h : tree.fileAt location = some content)
    (hread : readFile path content = .error e) :
    readAt tree location = none ∧
      ∀ including resolved span, e ≠ .invalidInput including (.includeCycle resolved) span := by
  refine ⟨by rw [readAt_eq h, hread]; rfl, ?_⟩
  intro including resolved span heq
  subst heq
  simp only [readFile, SourceText.ofBytes, bind_eq_error_iff] at hread
  rcases hread with hread | ⟨source, -, hread | ⟨manifest, -, hread | ⟨models, -, hread⟩⟩⟩
  · split at hread <;> cases hread
  · obtain ⟨fault, span, heq, hfault⟩ := Toml.fault_of_decode hread
    cases heq
    exact hfault _ rfl
  · obtain ⟨fault, span, heq, hfault⟩ := fault_of_toModels hread
    cases heq
    exact hfault _ rfl
  · cases hread

end Manifest

end PairedSource
