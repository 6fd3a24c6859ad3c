import PairedSource.Proofs.Assembly.Collisions
import PairedSource.Proofs.ObjectiveC.Distinct

namespace PairedSource.ObjectiveC

open Assembly Identifier

variable {config : RunConfig} {context : UnitContext Entry} {contexts : List (UnitContext Entry)}
  {unit : SourceUnit} {units : List SourceUnit} {models : List (UnitModel Entry)}
  {generation : Generation} {e : Error}

theorem isCanonical_of_rendered (h : List.Forall₂ (Rendered config) contexts units) :
    List.Forall₂ (IsCanonical naming config) units (contexts.map UnitContext.name) := by
  rw [List.forall₂_map_right_iff]
  refine h.flip.imp fun unit context hunit ↦ ?_
  obtain ⟨imports, rfl⟩ := hunit.unit_eq
  exact hunit.typeName

/-- The rules know every construct of a filled unit, whatever the target. -/
theorem Rendered.exists_assembleUnit (h : Rendered config context unit) (mode : TargetMode)
    (name : String) : ∃ a, assembleUnit engine mode unit name = .ok a := by
  obtain ⟨imports, rfl⟩ := h.unit_eq
  exact ⟨_, assembleUnit_eq_ok_iff.2 ⟨_, _, mapM_declarations mode context name,
    mapM_definitions mode context name, rfl⟩⟩

theorem generate_eq_layOut_of_rendered {other : RunConfig} {names : List String}
    (hcheck : checkPrefix engine.language.naming other = .ok ⟨⟩)
    (hrendered : List.Forall₂ (Rendered config) contexts units)
    (hnames : List.Forall₂ (IsCanonical naming other) units names)
    (hfree : collision? units names = none) : ∃ assembled,
      engine.generate other units = layOut language other assembled := by
  rw [generate_eq_of_canonical hcheck hnames, hfree]
  refine Except.exists_mapM_bind_eq (fun pair hmem ↦ ?_) (layOut language other)
  obtain ⟨unit, name⟩ := pair
  obtain ⟨context, -, hunit⟩ := hrendered.exists_of_mem_right (List.of_mem_zip hmem).1
  exact hunit.exists_assembleUnit other.targetMode name

/-- Units that were filled can fail only by their names: a name of the run is there twice, or the
common file has a name that is no identifier. The naming has no objections left, and the rules cover
whatever the units hold. -/
theorem filled_units_fail_by_name (h : populate naming renderer config models = .ok units) :
    ∃ names, List.Forall₂ (IsCanonical naming config) units names ∧ ∀ legacyTarget : Bool,
      (∀ e, engine.generate { config with legacyTarget } units = .error e →
        (∃ name first second, e = .duplicateUnitName name first second) ∨
        (∃ symbol first second, e = .duplicateSymbol symbol first second) ∨
        config.aggregate = true ∧ isIdentifier config.aggregateName = false ∧
          e = .invalidKey config.aggregateName config.aggregateName .notAnIdentifier) ∧
      ((∃ generation, engine.generate { config with legacyTarget } units = .ok generation) ↔
        ¬SharesName names ∧ ¬SymbolTaken units names ∧
          (config.aggregate = true → isIdentifier config.aggregateName = true)) := by
  obtain ⟨contexts, -, hrendered⟩ := exists_rendered_of_populate h
  have hnames := isCanonical_of_rendered hrendered
  have hcheck := Population.checkPrefix_of_populate h
  refine ⟨_, hnames, fun legacyTarget ↦ ?_⟩
  have hcheck' : checkPrefix engine.language.naming { config with legacyTarget } = .ok ⟨⟩ :=
    hcheck
  have hnames' : List.Forall₂ (IsCanonical naming { config with legacyTarget }) units
      (contexts.map UnitContext.name) := hnames
  have hfree := collision?_eq_none_iff hnames.length_eq.symm
  cases hclash : collision? units (contexts.map UnitContext.name) with
  | some e =>
    have hcollision := isCollision_of_collision? hclash
    have hgenerate : engine.generate { config with legacyTarget } units = .error e :=
      (generate_eq_error_iff hcheck' hnames' hcollision).2 hclash
    rw [hgenerate]
    refine ⟨fun e' he ↦ ?_, fun hok ↦ ?_, fun hok ↦ ?_⟩
    · obtain rfl := Except.error.inj he
      cases e with
      | duplicateUnitName name first second => exact .inl ⟨name, first, second, rfl⟩
      | duplicateSymbol symbol first second => exact .inr (.inl ⟨symbol, first, second, rfl⟩)
      | _ => cases hcollision
    · obtain ⟨generation, hok⟩ := hok
      cases hok
    · rw [hfree.2 ⟨hok.1, hok.2.1⟩] at hclash
      cases hclash
  | none =>
    obtain ⟨hshares, htaken⟩ := hfree.1 hclash
    obtain ⟨assembled, hgenerate⟩ :=
      generate_eq_layOut_of_rendered hcheck' hrendered hnames' hclash
    rw [hgenerate]
    refine ⟨fun e he ↦ .inr (.inr (layOut_eq_error_iff.1 he)), ?_⟩
    simp only [layOut_eq_ok_iff]
    cases config.aggregate with
    | false => simp [hshares, htaken]
    | true => simp [hshares, htaken]

theorem filled_units_fail_by_name_palette : ∃ units,
    populate naming renderer paletteConfig palette = .ok units ∧
      ∃ generation, engine.generate { paletteConfig with legacyTarget := true } units =
        .ok generation := by
  obtain ⟨units, generation, hunits, hgeneration⟩ := generates_palette
  obtain ⟨names, -, hall⟩ := filled_units_fail_by_name hunits
  exact ⟨units, hunits, (hall true).2.2 ((hall false).2.1 ⟨generation, hgeneration⟩)⟩

end PairedSource.ObjectiveC
