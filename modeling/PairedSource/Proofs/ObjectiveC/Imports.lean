import PairedSource.Proofs.Assembly.Layout
import PairedSource.Proofs.ObjectiveC.Interface

namespace PairedSource.ObjectiveC

open Assembly

variable {config : RunConfig} {context : UnitContext Entry} {model : UnitModel Entry}
  {models : List (UnitModel Entry)} {unit : SourceUnit} {units : List SourceUnit}
  {generation : Generation}

def frameworkOf (model : UnitModel Entry) : String :=
  if model.members.any (·.value.isColor) then "<UIKit/UIKit.h>" else "<Foundation/Foundation.h>"

theorem frameworkImport_eq (h : Population.Names naming config model context) :
    frameworkImport context = frameworkOf model := by
  rw [frameworkImport, frameworkOf, ← h.members, List.any_map]
  rfl

theorem toList_imports_unitOf (imports : List String) :
    (unitOf context imports).imports.toList = (imports ++ [frameworkImport context]).eraseDups := by
  have hall : (unitOf context imports).imports =
      OrderedSet.insertAll ∅ (imports ++ [frameworkImport context]) := by
    rw [OrderedSet.insertAll_append]
    rfl
  rw [hall, OrderedSet.toList_insertAll_eq_eraseDups]
  rfl

theorem forall₂_imports (h : populate naming renderer config models = .ok units) :
    List.Forall₂ (fun model unit ↦
      unit.imports.toList = (model.imports ++ [frameworkOf model]).eraseDups) models units := by
  refine (Population.forall₂_of_populate h).imp fun model unit hunit ↦ ?_
  obtain ⟨context, hnames, hrender⟩ := hunit
  rw [render_eq] at hrender
  obtain rfl := Except.ok.inj hrender
  rw [toList_imports_unitOf, frameworkImport_eq hnames]

/-- The imports of a unit are those of its model in their order, and behind them the framework,
which is first only where the model imports nothing or the framework before all else. They head the
files of the unit, or the common files together with those of the other units. -/
theorem own_imports_first (h : populate naming renderer config models = .ok units) :
    List.Forall₂ (fun model unit ↦
      unit.imports.toList = (model.imports ++ [frameworkOf model]).eraseDups ∧
        (unit.imports.toList = (frameworkOf model :: model.imports).eraseDups ↔
          ∀ first ∈ model.imports.head?, first = frameworkOf model)) models units ∧
    ∀ generation, engine.generate config units = .ok generation →
      (config.aggregate = false →
        List.Forall₂ (fun unit files ↦ IsHeadedBy language config unit.imports.toList files)
          units generation.pairs) ∧
      (config.aggregate = true → ∃ files, generation.pairs = [files] ∧
        IsHeadedBy language config (units.flatMap (·.imports.toList)).eraseDups files) := by
  constructor
  · refine (forall₂_imports h).imp fun model unit himports ↦ ⟨himports, ?_⟩
    rw [himports]
    exact List.eraseDups_append_singleton_iff
  · intro generation hgenerate
    exact ⟨isHeadedBy_of_single hgenerate, isHeadedBy_of_joined hgenerate⟩

def gadgets : List (UnitModel Entry) :=
  [{ key := "gadget", imports := ["<QuartzCore/QuartzCore.h>"],
     members := [⟨"sky", .color ⟨0, 128, 255, 255⟩⟩] },
   { key := "widget", imports := ["<Foundation/Foundation.h>", "<QuartzCore/QuartzCore.h>"] }]

def gadgetsConfig : RunConfig where
  input := ⟨"gadgets.toml"⟩

theorem imports_gadgets : ∃ units, populate naming renderer gadgetsConfig gadgets = .ok units ∧
    units.map (·.imports.toList) = [["<QuartzCore/QuartzCore.h>", "<UIKit/UIKit.h>"],
      ["<Foundation/Foundation.h>", "<QuartzCore/QuartzCore.h>"]] := by
  have hsome : (populate naming renderer gadgetsConfig gadgets).toOption.map
      (·.map (·.imports.toList)) = some [["<QuartzCore/QuartzCore.h>", "<UIKit/UIKit.h>"],
        ["<Foundation/Foundation.h>", "<QuartzCore/QuartzCore.h>"]] := by decide
  obtain ⟨units, hunits, himports⟩ := Option.map_eq_some_iff.1 hsome
  exact ⟨units, Except.toOption_eq_some_iff.1 hunits, himports⟩

theorem own_imports_first_gadgets :
    ∃ units, populate naming renderer gadgetsConfig gadgets = .ok units ∧
      List.Forall₂ (fun model unit ↦
        unit.imports.toList = (model.imports ++ [frameworkOf model]).eraseDups) gadgets units := by
  obtain ⟨units, hunits, -⟩ := imports_gadgets
  exact ⟨units, hunits, (own_imports_first hunits).1.imp fun _ _ h ↦ h.1⟩

/-- The framework is not in front of what a unit with a colour imports itself. -/
theorem framework_imported_last : ∃ units,
    populate naming renderer gadgetsConfig gadgets = .ok units ∧
      ¬List.Forall₂ (fun model unit ↦
        unit.imports.toList = (frameworkOf model :: model.imports).eraseDups) gadgets units := by
  obtain ⟨units, hunits, himports⟩ := imports_gadgets
  refine ⟨units, hunits, fun h ↦ ?_⟩
  obtain ⟨unit, rest, hunit, -, rfl⟩ := List.forall₂_cons_left_iff.1 h
  rw [List.map_cons, hunit] at himports
  exact absurd (List.cons.inj himports).1 (by decide)

end PairedSource.ObjectiveC
