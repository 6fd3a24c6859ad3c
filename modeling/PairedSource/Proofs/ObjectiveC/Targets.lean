import PairedSource.Proofs.Assembly.Targets
import PairedSource.Proofs.ObjectiveC.Distinct

namespace PairedSource

namespace ObjectiveC

open Assembly

/-- A text with one place that the target decides about. -/
structure Site where
  front : String
  slot : TargetMode → String
  back : String

def Site.on (site : Site) (mode : TargetMode) : String :=
  site.front ++ site.slot mode ++ site.back

/-- The text of each construct with the one place in it that differs between the targets: the
method that makes a colour, or the type of the method for all colours. -/
inductive IsSite : Construct → Site → Prop
  | accessor (method : String) (color : Color) :
    IsSite { kind := colorAccessor, args := method :: color.components } {
      front := s!"+ (UIColor *){method}\n\x7b\n    return [UIColor "
      slot := initializer
      back := s!":{Color.fraction color.red} green:{Color.fraction color.green}" ++
        s!" blue:{Color.fraction color.blue} alpha:{Color.fraction color.alpha}];\n\x7d\n" }
  | declaration :
    IsSite { kind := allColorsDeclaration, args := [allColors] } {
      front := "+ ("
      slot := arrayType
      back := s!"){allColors};" }
  | definition (methods : List String) :
    IsSite { kind := allColorsDefinition, args := allColors :: methods } {
      front := "+ ("
      slot := arrayType
      back := s!"){allColors}\n" ++
        String.join ((allColorsLines .modern methods).tail.map (· ++ "\n")) }

variable {construct : Construct} {site : Site}

theorem resolve?_of_isSite (h : IsSite construct site) (mode : TargetMode) :
    rules.resolve? construct mode = some (site.on mode) := by
  cases h with
  | accessor method color =>
    have hresolve : rules.resolve? { kind := colorAccessor, args := method :: color.components }
        mode = some (colorMethod (initializer mode)
          { kind := colorAccessor, args := method :: color.components }) := by
      cases mode <;> rfl
    rw [hresolve, colorMethod_eq, Option.some_inj, ← String.toList_inj]
    simp [colorLines, Site.on]
  | declaration => cases mode <;> rfl
  | definition methods =>
    have hresolve : rules.resolve? { kind := allColorsDefinition, args := allColors :: methods }
        mode = some (allColorsMethod (arrayType mode)
          { kind := allColorsDefinition, args := allColors :: methods }) := by
      cases mode <;> rfl
    have htail : allColorsLines mode methods =
        s!"+ ({arrayType mode}){allColors}" :: (allColorsLines .modern methods).tail := rfl
    rw [hresolve, allColorsMethod_eq, Option.some_inj, htail]
    simp [Site.on, ← String.append_assoc]

theorem exists_isSite {context : UnitContext Entry} {imports : List String}
    (hmem : .construct construct ∈
      (unitOf context imports).declarations ++ (unitOf context imports).definitions) :
    ∃ site, IsSite construct site := by
  simp only [unitOf, List.mem_append, List.mem_map] at hmem
  rcases hmem with (⟨_, -, heq⟩ | hdeclared) | ⟨member, -, heq⟩ | hdefined
  · cases heq
  · split at hdeclared
    · obtain rfl := Fragment.construct.inj (List.mem_singleton.1 hdeclared)
      exact ⟨_, .declaration⟩
    · cases hdeclared
  · rw [definitionOf] at heq
    split at heq
    · cases heq
    · obtain rfl := Fragment.construct.inj heq
      exact ⟨_, .accessor _ _⟩
  · split at hdefined
    · obtain rfl := Fragment.construct.inj (List.mem_singleton.1 hdefined)
      exact ⟨_, .definition _⟩
    · cases hdefined

end ObjectiveC

open Assembly ObjectiveC

/-- The legacy target replaces the texts of some constructs and changes nothing else: files, names
and directives stay, and so does every text that it has no rule for. For Objective-C one place in
each construct is replaced. -/
theorem legacy_target_substitutes (engine : Engine) (config : RunConfig)
    (units : List SourceUnit) :
    (∀ modern, engine.generate { config with legacyTarget := false } units = .ok modern →
      ∃ legacy all, engine.generate { config with legacyTarget := true } units = .ok legacy ∧
        legacy.aggregate = modern.aggregate ∧
        List.Forall₂ (HasUnitText engine config) units all ∧
        List.Forall₂ (IsSheet engine.language config .modern) (sheets config all) modern.pairs ∧
        List.Forall₂ (IsSheet engine.language config .legacy) (sheets config all) legacy.pairs) ∧
    ((∀ kind, engine.rules.own? kind .legacy = none) →
      engine.generate { config with legacyTarget := true } units =
        engine.generate { config with legacyTarget := false } units) ∧
    ∀ (naming : NamingPolicy) (models : List (UnitModel Entry)) (filled : List SourceUnit),
      populate naming renderer config models = .ok filled → ∀ unit ∈ filled, ∀ construct,
        .construct construct ∈ unit.declarations ++ unit.definitions →
          ∃ site, IsSite construct site ∧
            ∀ mode, ObjectiveC.rules.resolve? construct mode = some (site.on mode) := by
  refine ⟨fun modern ↦ Engine.exists_generate_legacy, Engine.generate_legacy_eq, ?_⟩
  intro naming models filled h unit hunit construct hconstruct
  obtain ⟨model, -, context, -, hrender⟩ :=
    (Population.forall₂_of_populate h).exists_of_mem_right hunit
  rw [render_eq] at hrender
  obtain rfl := Except.ok.inj hrender
  obtain ⟨site, hsite⟩ := exists_isSite hconstruct
  exact ⟨site, hsite, resolve?_of_isSite hsite⟩

namespace ObjectiveC

def modernEngine : Engine where
  language := language
  rules := ({} : RuleTable).insert colorAccessor .modern (colorMethod "colorWithDisplayP3Red")

theorem own?_legacy_modernEngine (kind : String) : modernEngine.rules.own? kind .legacy = none := by
  have hrules : modernEngine.rules.rules =
      [(colorAccessor, [(.modern, colorMethod "colorWithDisplayP3Red")])] := rfl
  rw [RuleTable.own?, hrules, List.lookup_cons]
  split <;> rfl

theorem legacy_target_substitutes_palette :
    (∃ units modern legacy, populate naming renderer paletteConfig palette = .ok units ∧
      engine.generate paletteConfig units = .ok modern ∧
      engine.generate { paletteConfig with legacyTarget := true } units = .ok legacy ∧
      legacy.pairs.map ArtifactPair.name = modern.pairs.map ArtifactPair.name ∧
      ∀ unit ∈ units, ∀ construct, .construct construct ∈ unit.declarations ++ unit.definitions →
        ∃ site, IsSite construct site ∧
          ∀ mode, rules.resolve? construct mode = some (site.on mode)) ∧
    modernEngine.generate { panelsConfig with legacyTarget := true } panels =
      modernEngine.generate { panelsConfig with legacyTarget := false } panels := by
  obtain ⟨units, modern, hunits, hmodern⟩ := generates_palette
  obtain ⟨hlegacy, -, hsites⟩ := legacy_target_substitutes engine paletteConfig units
  obtain ⟨legacy, all, hlegacy, -, -, hsheets, hsheets'⟩ := hlegacy modern hmodern
  obtain ⟨-, hsame, -⟩ := legacy_target_substitutes modernEngine panelsConfig panels
  refine ⟨⟨units, modern, legacy, hunits, hmodern, hlegacy, ?_, hsites _ _ _ hunits⟩,
    hsame own?_legacy_modernEngine⟩
  rw [map_name_of_isSheet hsheets, map_name_of_isSheet hsheets']

end ObjectiveC

end PairedSource
