import PairedSource.Manifest
import PairedSource.Proofs.Except

namespace PairedSource.Manifest

open Except

variable {source : SourceText} {unit key value : String} {named : String × UnitSpec}
  {entry : String × String} {member : Member Entry} {model : UnitModel Entry} {e : Error}

def IsColorMember (entry : String × String) (member : Member Entry) : Prop :=
  ∃ color, Color.read? entry.2 = some color ∧ member = { key := entry.1, value := .color color }

/-- What a unit becomes: its imports as they are, and a member for each of its identifiers and then
for each of its colours, all in their order. -/
structure IsModelOf (named : String × UnitSpec) (model : UnitModel Entry) : Prop where
  key : model.key = named.1
  imports : model.imports = named.2.imports
  members : ∃ colors, List.Forall₂ IsColorMember named.2.colors colors ∧
    model.members = named.2.identifiers.map (fun (key, value) ↦
      { key, value := .identifier value }) ++ colors

def HasColors (named : String × UnitSpec) : Prop :=
  ∀ entry ∈ named.2.colors, ∃ color, Color.read? entry.2 = some color

theorem colorMember_eq_ok_iff :
    colorMember source unit entry = .ok member ↔ IsColorMember entry member := by
  obtain ⟨key, value⟩ := entry
  rw [colorMember, IsColorMember]
  cases Color.read? value <;> simp [eq_comm]

theorem exists_colorMember_eq_ok_iff : (∃ member, colorMember source unit entry = .ok member) ↔
    ∃ color, Color.read? entry.2 = some color := by
  simp [colorMember_eq_ok_iff, IsColorMember]

theorem colorMember_eq_error_iff : colorMember source unit (key, value) = .error e ↔
    Color.read? value = none ∧ e = source.errorAt (.invalidColor value unit) value := by
  rw [colorMember]
  cases Color.read? value <;> simp [eq_comm]

theorem mapM_colorMember_eq_ok_iff {entries : List (String × String)}
    {members : List (Member Entry)} : entries.mapM (colorMember source unit) = .ok members ↔
      List.Forall₂ IsColorMember entries members := by
  simp only [mapM_eq_ok_iff, colorMember_eq_ok_iff]

theorem toModel_eq_ok_iff : toModel source named = .ok model ↔ IsModelOf named model := by
  obtain ⟨unit, spec⟩ := named
  constructor
  · intro h
    obtain ⟨colors, hcolors, rfl⟩ := bind_ok_eq_ok_iff.1 h
    exact ⟨rfl, rfl, colors, mapM_colorMember_eq_ok_iff.1 hcolors, rfl⟩
  · intro h
    obtain ⟨key, imports, members⟩ := model
    obtain ⟨hkey, himports, colors, hcolors, hmembers⟩ := h
    dsimp only at hkey himports hmembers
    subst hkey himports hmembers
    exact bind_ok_eq_ok_iff.2 ⟨colors, mapM_colorMember_eq_ok_iff.2 hcolors, rfl⟩

theorem exists_toModel_eq_ok_iff :
    (∃ model, toModel source named = .ok model) ↔ HasColors named := by
  have hentries := @exists_mapM_eq_ok_iff _ _ _ (colorMember source named.1) named.2.colors
  simp only [exists_colorMember_eq_ok_iff] at hentries
  rw [HasColors, ← hentries]
  constructor
  · rintro ⟨model, h⟩
    obtain ⟨colors, hcolors, -⟩ := bind_ok_eq_ok_iff.1 h
    exact ⟨colors, hcolors⟩
  · rintro ⟨colors, hcolors⟩
    exact ⟨_, bind_ok_eq_ok_iff.2 ⟨colors, hcolors, rfl⟩⟩

theorem toModel_eq_error_iff : toModel source named = .error e ↔
    ∃ before key value after, named.2.colors = before ++ (key, value) :: after ∧
      (∀ entry ∈ before, ∃ color, Color.read? entry.2 = some color) ∧ Color.read? value = none ∧
      e = source.errorAt (.invalidColor value named.1) value := by
  obtain ⟨unit, spec⟩ := named
  have hfails : toModel source (unit, spec) = .error e ↔
      spec.colors.mapM (colorMember source unit) = .error e := by
    rw [toModel]
    dsimp only
    cases spec.colors.mapM (colorMember source unit) <;>
      simp [ok_bind, error_bind, pure, Except.pure]
  simp only [hfails, mapM_eq_error_iff, exists_mapM_eq_ok_iff, exists_colorMember_eq_ok_iff,
    Prod.exists, colorMember_eq_error_iff]

theorem message_invalidColor (path : Path) (value unit : String) (span? : Option Span) :
    (Error.invalidInput path (.invalidColor value unit) span?).message =
      "invalid colour '" ++ value ++ "', expected #RRGGBB or #RRGGBBAA in unit '" ++ unit ++
        "'" := by
  have hjoin : "', expected #RRGGBB or #RRGGBBAA" ++ " in unit '" =
      "', expected #RRGGBB or #RRGGBBAA in unit '" := rfl
  rw [← hjoin, ← String.append_assoc]
  rfl

variable (source) in
/-- A manifest becomes one model for each of its units, in their order and with all that they hold.
There is none where a value is no colour, and the error is then about the first of these, unit by
unit. -/
theorem toModels_exact (manifest : Manifest) :
    ((∃ models, manifest.toModels source = .ok models) ↔
      ∀ named ∈ manifest.units, HasColors named) ∧
    (∀ models, manifest.toModels source = .ok models ↔
      List.Forall₂ IsModelOf manifest.units models) ∧
    ∀ e, manifest.toModels source = .error e ↔
      ∃ units unit spec units' colors key value colors',
        manifest.units = units ++ (unit, spec) :: units' ∧ (∀ named ∈ units, HasColors named) ∧
        spec.colors = colors ++ (key, value) :: colors' ∧
        (∀ entry ∈ colors, ∃ color, Color.read? entry.2 = some color) ∧
        Color.read? value = none ∧
        e = .invalidInput source.path (.invalidColor value unit)
          (Text.locate? value source.text) ∧
        e.message = "invalid colour '" ++ value ++
          "', expected #RRGGBB or #RRGGBBAA in unit '" ++ unit ++ "'" := by
  refine ⟨?_, fun models ↦ ?_, fun e ↦ ?_⟩
  · simp only [toModels, exists_mapM_eq_ok_iff, exists_toModel_eq_ok_iff]
  · simp only [toModels, mapM_eq_ok_iff, toModel_eq_ok_iff]
  · simp only [toModels, mapM_eq_error_iff, exists_mapM_eq_ok_iff, exists_toModel_eq_ok_iff,
      toModel_eq_error_iff, Prod.exists]
    constructor
    · rintro ⟨units, unit, spec, units', hunits, hbefore, colors, key, value, colors', hcolors,
        hread, hvalue, rfl⟩
      exact ⟨units, unit, spec, units', colors, key, value, colors', hunits, hbefore, hcolors,
        hread, hvalue, rfl, message_invalidColor ..⟩
    · rintro ⟨units, unit, spec, units', colors, key, value, colors', hunits, hbefore, hcolors,
        hread, hvalue, rfl, -⟩
      exact ⟨units, unit, spec, units', hunits, hbefore, colors, key, value, colors', hcolors,
        hread, hvalue, rfl⟩

end PairedSource.Manifest
