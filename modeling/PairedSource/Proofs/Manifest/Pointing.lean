import PairedSource.Proofs.Lists
import PairedSource.Proofs.Manifest.Colors
import PairedSource.Proofs.Toml.Standing

namespace PairedSource

open Except
open Toml (Document Lexeme Value)

namespace Manifest

variable {source : SourceText} {manifest : Manifest} {e : Error}

def isNoColor (value : String) : Bool :=
  (Color.read? value).isNone

theorem error?_colorMember (unit : String) (color : String × String) :
    (colorMember source unit color).error? = if isNoColor color.2 then
      some (source.errorAt (.invalidColor color.2 unit) color.2) else none := by
  unfold colorMember isNoColor
  dsimp only
  cases Color.read? color.2 <;> rfl

theorem error?_toModel (unit : String × UnitSpec) : (toModel source unit).error? =
    unit.2.colors.findSome? fun color ↦ (colorMember source unit.1 color).error? := by
  rw [← error?_mapM]
  unfold toModel
  dsimp only
  cases unit.2.colors.mapM (colorMember source unit.1) <;> rfl

theorem toModels_eq_error_iff : manifest.toModels source = .error e ↔ ∃ unit key value,
    manifest.colors.find? (fun color ↦ isNoColor color.2.2) = some (unit, key, value) ∧
      e = source.errorAt (.invalidColor value unit) value := by
  have hfirst : (manifest.toModels source).error? =
      (manifest.colors.find? fun color ↦ isNoColor color.2.2).map fun color ↦
        source.errorAt (.invalidColor color.2.2 color.1) color.2.2 := by
    rw [← List.findSome?_eq_map_find?, colors, toModels, error?_mapM]
    induction manifest.units with
    | nil => rfl
    | cons unit units ih =>
      rw [List.findSome?_cons, List.flatMap_cons, List.findSome?_append, ih, List.findSome?_map,
        error?_toModel]
      simp only [error?_colorMember, Function.comp_def]
      generalize List.findSome? _ unit.2.colors = first
      cases first <;> rfl
  rw [← error?_eq_some_iff, hfirst, Option.map_eq_some_iff]
  constructor
  · intro h
    obtain ⟨⟨unit, key, value⟩, hfind, rfl⟩ := h
    exact ⟨unit, key, value, hfind, rfl⟩
  · intro h
    obtain ⟨unit, key, value, hfind, rfl⟩ := h
    exact ⟨(unit, key, value), hfind, rfl⟩

variable (source) in
/-- A lexeme stands in a text at its span and has a value as its text. A date or time has one
too. -/
structure IsLiteralOf (lexeme : Lexeme) (value : String) : Prop where
  occurs : Text.Occurs source.text.toList lexeme.text lexeme.span
  value : lexeme.value = .ok (.text value) ∨
    ∃ dateTime, lexeme.value = .ok (.dateTime dateTime) ∧ dateTime.text = value

theorem occurs_of_standsIn {lexeme : Lexeme} {given : Value} {s : List Char}
    (h : lexeme.StandsIn s) (hvalue : lexeme.value = .ok given) :
    Text.Occurs s lexeme.text lexeme.span := by
  rcases h with ⟨hstyle, htext⟩ | h
  · rw [Toml.Lexeme.value, hstyle, htext] at hvalue
    cases hvalue
  · exact h

theorem exists_isLiteralOf {given : Toml.Located Value} {value : String}
    (h : Toml.Traced (Lexeme.StandsIn source.text.toList) given)
    (hvalue : given.value = .text value) :
    ∃ lexeme, lexeme.span = given.span ∧ IsLiteralOf source lexeme value := by
  rcases h with h | ⟨dateTime, htext, h⟩
  · obtain ⟨lexeme, hlexeme, hspan, hstands⟩ := h.exists_lexeme (by rw [hvalue]; rfl)
    exact ⟨lexeme, hspan, occurs_of_standsIn hstands hlexeme, .inl (hvalue ▸ hlexeme)⟩
  · obtain ⟨lexeme, hlexeme, hspan, hstands⟩ := h.exists_lexeme rfl
    have hsame : dateTime.text = value := Value.text.inj (htext.symm.trans hvalue)
    exact ⟨lexeme, hspan, occurs_of_standsIn hstands hlexeme,
      .inr ⟨dateTime, hlexeme, hsame⟩⟩

def ColorEntry.isRejected (entry : ColorEntry) : Bool :=
  match entry.given.value with
  | .text value => isNoColor value
  | _ => false

variable (source) in
/-- Where the span of an error lies that was asked to point to a value, which a lexeme spells. -/
structure PointsTo (lexeme : Lexeme) (value : String) (span? : Option Span) : Prop where
  covers : ∀ span, span? = some span → Text.Occurs source.text.toList value.toList span
  absent : span? = none ↔ ∀ span, ¬Text.Occurs source.text.toList value.toList span
  double : lexeme.text = Text.between '"' value.toList →
    (span? = some lexeme.span.inner ↔ ∀ other,
      Text.Occurs source.text.toList lexeme.text other → lexeme.span.offset ≤ other.offset)
  single : lexeme.text = Text.between '\'' value.toList →
    (span? = some lexeme.span.inner ↔
      (∀ other, ¬Text.Occurs source.text.toList (Text.between '"' value.toList) other) ∧
      ∀ other, Text.Occurs source.text.toList lexeme.text other →
        lexeme.span.offset ≤ other.offset)
  alone : (∀ other, Text.Occurs source.text.toList value.toList other →
    other.IsWithin lexeme.span) → ∀ span, span? = some span → span.IsWithin lexeme.span

theorem pointsTo_locate? {lexeme : Lexeme} {value : String}
    (h : Text.Occurs source.text.toList lexeme.text lexeme.span) :
    PointsTo source lexeme value (Text.locate? value source.text) where
  covers _ := Text.occurs_of_locate?
  absent := Text.locate?_eq_none_iff
  double heq := by
    rw [heq] at h ⊢
    exact Text.locate?_eq_inner_iff_of_double h
  single heq := by
    rw [heq] at h ⊢
    exact Text.locate?_eq_inner_iff_of_single h
  alone hwithin span hspan := hwithin span (Text.occurs_of_locate? hspan)

theorem exists_rejected {document : Toml.Document}
    (hread : Document.read source.text = .ok document)
    (hmanifest : ofTable document.root = .ok manifest) (h : manifest.toModels source = .error e) :
    ∃ entry value, (colorsIn document.root).find? ColorEntry.isRejected = some entry ∧
      entry.given.value = .text value ∧
      e = source.errorAt (.invalidColor value entry.unit) value := by
  obtain ⟨unit, key, value, hfind, rfl⟩ := toModels_eq_error_iff.1 h
  have hcolors := forall₂_colors (Document.built_read hread) hmanifest
  obtain ⟨entry, hentry, rfl, -, hvalue⟩ := hcolors.exists_find? (p := ColorEntry.isRejected)
    (fun entry color hcolor ↦ by rw [ColorEntry.isRejected, hcolor.2.2]) hfind
  exact ⟨entry, value, hentry, hvalue, rfl⟩

/-- An error about a colour is about the first colour of the document that is none. It points to a
place that has the text of the value, if there is one: to the value itself if it is between double
quotes and no equal text is so before it, or between single quotes and no equal text is so before it
or is between double quotes anywhere. -/
theorem rejected_color_located (hparse : Manifest.parse source = .ok manifest)
    (h : manifest.toModels source = .error e) : ∃ document entry value lexeme span?,
      Document.read source.text = .ok document ∧
      (colorsIn document.root).find? ColorEntry.isRejected = some entry ∧
      entry.given = ⟨.text value, lexeme.span⟩ ∧ IsLiteralOf source lexeme value ∧
      e = .invalidInput source.path (.invalidColor value entry.unit) span? ∧
      PointsTo source lexeme value span? := by
  obtain ⟨document, hread, hmanifest⟩ := Toml.decode_eq_ok_iff.1 hparse
  obtain ⟨entry, value, hfind, hvalue, rfl⟩ := exists_rejected hread hmanifest h
  have htraced := traced_colorsIn (Document.built_read hread) (List.mem_of_find?_eq_some hfind)
  obtain ⟨lexeme, hspan, hliteral⟩ := exists_isLiteralOf htraced hvalue
  refine ⟨document, entry, value, lexeme, _, hread, hfind, ?_, hliteral, rfl,
    pointsTo_locate? hliteral.occurs⟩
  rw [hspan, ← hvalue]

def plainSource : SourceText where
  path := ⟨"units.toml"⟩
  text := "[units.widget]\ncolors = \x7b tint = \"#XYZ\" \x7d\n"

theorem rejected_color_located_plain : ∃ manifest lexeme,
    Manifest.parse plainSource = .ok manifest ∧
    manifest.toModels plainSource =
      .error (.invalidInput ⟨"units.toml"⟩ (.invalidColor "#XYZ" "widget") (some ⟨34, 4⟩)) ∧
    IsLiteralOf plainSource lexeme "#XYZ" ∧
    PointsTo plainSource lexeme "#XYZ" (some ⟨34, 4⟩) := by
  let manifest : Manifest := { units := [("widget", { colors := [("tint", "#XYZ")] })] }
  have hparse : Manifest.parse plainSource = .ok manifest := by decide +kernel
  have herror : manifest.toModels plainSource =
      .error (.invalidInput ⟨"units.toml"⟩ (.invalidColor "#XYZ" "widget") (some ⟨34, 4⟩)) := by
    decide +kernel
  obtain ⟨_, entry, value, lexeme, span?, -, -, -, hliteral, he, hpoints⟩ :=
    rejected_color_located hparse herror
  obtain ⟨-, hfault, rfl⟩ := Error.invalidInput.inj he
  obtain ⟨rfl, -⟩ := InputFault.invalidColor.inj hfault
  exact ⟨manifest, lexeme, hparse, herror, hliteral, hpoints⟩

def sharedSource : SourceText where
  path := ⟨"units.toml"⟩
  text := "[units.brand]\nidentifiers = \x7b name = \"red\" \x7d\n" ++
    "colors = \x7b tint = \"red\" \x7d\n"

/-- The error points to the identifier. -/
theorem rejected_color_mislocated : ∃ manifest document entry,
    Manifest.parse sharedSource = .ok manifest ∧
    Document.read sharedSource.text = .ok document ∧
    (colorsIn document.root).find? ColorEntry.isRejected = some entry ∧
    entry.given.span = ⟨63, 5⟩ ∧
    manifest.toModels sharedSource =
      .error (.invalidInput ⟨"units.toml"⟩ (.invalidColor "red" "brand") (some ⟨38, 3⟩)) ∧
    ¬(⟨38, 3⟩ : Span).IsWithin entry.given.span := by
  let manifest : Manifest :=
    { units := [("brand", { identifiers := [("name", "red")], colors := [("tint", "red")] })] }
  have hparse : Manifest.parse sharedSource = .ok manifest := by decide +kernel
  have hfirst : (Document.read sharedSource.text).toOption.bind (fun document ↦
      ((colorsIn document.root).find? ColorEntry.isRejected).map (·.given.span)) =
        some ⟨63, 5⟩ := by
    decide +kernel
  obtain ⟨document, hread, hfirst⟩ := Option.bind_eq_some_iff.1 hfirst
  obtain ⟨entry, hentry, hspan⟩ := Option.map_eq_some_iff.1 hfirst
  refine ⟨manifest, document, entry, hparse, ?_, hentry, hspan, by decide +kernel, ?_⟩
  · cases hresult : Document.read sharedSource.text with
    | error e =>
      rw [hresult] at hread
      cases hread
    | ok result =>
      rw [hresult] at hread
      rw [Option.some.inj hread]
  · rw [hspan]
    intro hwithin
    exact absurd hwithin.1 (by decide)

end Manifest

end PairedSource
