import PairedSource.Manifest
import PairedSource.Proofs.Toml.Typed

namespace PairedSource

open Except
open Toml (Built Keyed Lexeme Located Table Typed Value)

namespace UnitSpec

variable {given : Located Value} {spec : UnitSpec}

def colorsOf (given : Located Value) : List (String × Keyed Value) :=
  match given.value.items? with
  | some items => (items[2]?.map Toml.entriesOf).getD []
  | none =>
    (((Toml.entriesOf given).lookup "colors").map fun field ↦
      Toml.entriesOf field.toLocated).getD []

theorem colors_of_map {colors : List (String × String)}
    (h : Typed.map Typed.string given = .ok colors) :
    List.Forall₂ (fun entry color ↦ entry.1 = color.1 ∧ entry.2.value = .text color.2)
      (Toml.entriesOf given) colors :=
  (Typed.map_eq_ok h).imp fun _ _ h ↦ ⟨h.1, Typed.string_eq_ok h.2⟩

theorem readField_colors {start next : UnitSpec} {field : Keyed Value}
    (h : readField start ("colors", field) = .ok next) :
    Typed.map Typed.string field.toLocated = .ok next.colors := by
  obtain ⟨colors, hcolors, rfl⟩ := bind_ok_eq_ok_iff.1 h
  exact hcolors

theorem readField_other {start next : UnitSpec} {key : String} {field : Keyed Value}
    (hkey : key ≠ "colors") (h : readField start (key, field) = .ok next) :
    next.colors = start.colors := by
  unfold readField at h
  split at h
  · obtain ⟨_, -, rfl⟩ := bind_ok_eq_ok_iff.1 h
    rfl
  · obtain ⟨_, -, rfl⟩ := bind_ok_eq_ok_iff.1 h
    rfl
  · rename_i heq
    exact absurd (Prod.mk.inj heq).1 hkey
  · cases h

theorem colors_of_readItems {items : List (Located Value)} (h : readItems items = .ok spec) :
    List.Forall₂ (fun entry color ↦ entry.1 = color.1 ∧ entry.2.value = .text color.2)
      ((items[2]?.map Toml.entriesOf).getD []) spec.colors := by
  obtain ⟨imports, -, h⟩ := bind_eq_ok_iff.1 h
  obtain ⟨identifiers, -, h⟩ := bind_eq_ok_iff.1 h
  obtain ⟨colors, hcolors, rfl⟩ := bind_ok_eq_ok_iff.1 h
  cases hitem : items[2]? with
  | none =>
    rw [hitem] at hcolors
    obtain rfl := Except.ok.inj hcolors
    exact .nil
  | some item =>
    rw [hitem] at hcolors
    exact colors_of_map hcolors

theorem colors_of_read {P : Lexeme → Prop} (htraced : Toml.Traced P given)
    (h : UnitSpec.read given = .ok spec) :
    List.Forall₂ (fun entry color ↦ entry.1 = color.1 ∧ entry.2.value = .text color.2)
      (colorsOf given) spec.colors := by
  unfold UnitSpec.read at h
  unfold colorsOf
  cases hitems : given.value.items? with
  | some items =>
    rw [hitems] at h
    exact colors_of_readItems h
  | none =>
    rw [hitems] at h
    obtain ⟨fields, hfields, h⟩ := bind_eq_ok_iff.1 h
    obtain rfl := Typed.fields_eq_ok hfields
    have hpart := Toml.part_of_foldlM readField_colors readField_other htraced.nodup h
    cases hlookup : (Toml.entriesOf given).lookup "colors" with
    | none =>
      rw [hpart.2 hlookup]
      exact .nil
    | some field => exact colors_of_map (hpart.1 field hlookup)

end UnitSpec

namespace Manifest

variable {manifest : Manifest} {root : Table}

theorem readField_units {start next : Manifest} {field : Keyed Value}
    (h : readField start ("units", field) = .ok next) :
    Typed.map UnitSpec.read field.toLocated = .ok next.units := by
  obtain ⟨units, hunits, rfl⟩ := bind_ok_eq_ok_iff.1 h
  exact hunits

theorem readField_other {start next : Manifest} {key : String} {field : Keyed Value}
    (hkey : key ≠ "units") (h : readField start (key, field) = .ok next) :
    next.units = start.units := by
  unfold readField at h
  split at h
  · obtain ⟨_, -, rfl⟩ := bind_ok_eq_ok_iff.1 h
    rfl
  · rename_i heq
    exact absurd (Prod.mk.inj heq).1 hkey
  · cases h

def unitsIn (root : Table) : List (String × Keyed Value) :=
  ((root.fields.lookup "units").map fun field ↦ Toml.entriesOf field.toLocated).getD []

/-- A colour as it stands in a document: the keys of its unit and its own, and its value. -/
structure ColorEntry where
  unit : String
  key : String
  given : Located Value

def colorsIn (root : Table) : List ColorEntry :=
  (unitsIn root).flatMap fun (unit, given) ↦
    (UnitSpec.colorsOf given.toLocated).map fun (key, color) ↦ ⟨unit, key, color.toLocated⟩

def colors (manifest : Manifest) : List (String × String × String) :=
  manifest.units.flatMap fun (unit, spec) ↦ spec.colors.map fun (key, value) ↦ (unit, key, value)

theorem units_of_ofTable (hkeys : (root.fields.map Prod.fst).Nodup)
    (h : ofTable root = .ok manifest) :
    List.Forall₂ (fun entry unit ↦ entry.1 = unit.1 ∧
      UnitSpec.read entry.2.toLocated = .ok unit.2) (unitsIn root) manifest.units := by
  have hpart := Toml.part_of_foldlM readField_units readField_other hkeys h
  unfold unitsIn
  cases hlookup : root.fields.lookup "units" with
  | none =>
    rw [hpart.2 hlookup]
    exact .nil
  | some field => exact Typed.map_eq_ok (hpart.1 field hlookup)

theorem traced_unitsIn {P : Lexeme → Prop} (h : root.Built P) :
    ∀ entry ∈ unitsIn root, Toml.Traced P entry.2.toLocated := by
  intro entry hentry
  unfold unitsIn at hentry
  cases hlookup : root.fields.lookup "units" with
  | none =>
    rw [hlookup] at hentry
    cases hentry
  | some field =>
    rw [hlookup] at hentry
    have hfield := h.field _ (Association.mem_of_lookup_eq_some hlookup)
    exact Toml.Traced.entry (.inl hfield) entry hentry

theorem traced_colorsIn {P : Lexeme → Prop} (h : root.Built P) {entry : ColorEntry}
    (hentry : entry ∈ colorsIn root) : Toml.Traced P entry.given := by
  obtain ⟨⟨unit, given⟩, hunit, hentry⟩ := List.mem_flatMap.1 hentry
  obtain ⟨⟨key, color⟩, hcolor, rfl⟩ := List.mem_map.1 hentry
  have hgiven := traced_unitsIn h _ hunit
  unfold UnitSpec.colorsOf at hcolor
  cases hitems : given.value.items? with
  | some items =>
    rw [hitems] at hcolor
    cases hitem : items[2]? with
    | none => simp [hitem] at hcolor
    | some item =>
      simp only [hitem, Option.map_some, Option.getD_some] at hcolor
      exact (hgiven.item hitems item (List.mem_of_getElem? hitem)).entry _ hcolor
  | none =>
    rw [hitems] at hcolor
    cases hlookup : (Toml.entriesOf given.toLocated).lookup "colors" with
    | none => simp [hlookup] at hcolor
    | some field =>
      simp only [hlookup, Option.map_some, Option.getD_some] at hcolor
      exact (hgiven.entry _ (Association.mem_of_lookup_eq_some hlookup)).entry _ hcolor

theorem forall₂_colors {P : Lexeme → Prop} (hbuilt : root.Built P)
    (h : ofTable root = .ok manifest) :
    List.Forall₂ (fun entry color ↦ entry.unit = color.1 ∧ entry.key = color.2.1 ∧
      entry.given.value = .text color.2.2) (colorsIn root) manifest.colors := by
  have hunits := units_of_ofTable hbuilt.nodup h
  have htraced := traced_unitsIn hbuilt
  unfold colorsIn colors
  generalize unitsIn root = entries at hunits htraced ⊢
  generalize manifest.units = units at hunits ⊢
  induction hunits with
  | nil => exact .nil
  | @cons entry unit entries units hunit _ ih =>
    obtain ⟨hkey, hread⟩ := hunit
    have hcolors := UnitSpec.colors_of_read (htraced entry List.mem_cons_self) hread
    rw [List.flatMap_cons, List.flatMap_cons]
    refine List.rel_append ?_ (ih fun entry hentry ↦ htraced entry (List.mem_cons_of_mem _ hentry))
    rw [List.forall₂_map_left_iff, List.forall₂_map_right_iff]
    exact hcolors.imp fun color out hout ↦ ⟨hkey, hout.1, hout.2⟩

end Manifest

end PairedSource
