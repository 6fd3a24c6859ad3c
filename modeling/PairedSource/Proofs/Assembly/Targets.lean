import PairedSource.Proofs.Assembly.Layout
import PairedSource.Proofs.RuleTable

namespace PairedSource

namespace Assembly

variable {engine : Engine} {language : Language} {rules : RuleTable} {config : RunConfig}
  {mode : TargetMode} {unit : SourceUnit} {units : List SourceUnit} {generation : Generation}
  {fragment : Fragment} {fragments : List Fragment} {name text : String} {texts : List String}

structure TargetText where
  modern : String
  legacy : String

def TargetText.on (text : TargetText) : TargetMode → String
  | .modern => text.modern
  | .legacy => text.legacy

/-- The targets tell nothing about a fragment apart: it is a text, or a construct without a rule
for the legacy target. -/
def Shared (rules : RuleTable) : Fragment → Prop
  | .text _ => True
  | .construct construct => rules.own? construct.kind .legacy = none

variable (rules fragment) in
/-- A fragment with its text on each target. The texts differ only where a rule says so. -/
structure HasTexts (texts : TargetText) : Prop where
  resolve_eq : ∀ mode unit, resolve rules mode unit fragment = .ok (texts.on mode)
  legacy_eq : Shared rules fragment → texts.legacy = texts.modern

theorem resolve_of_shared (h : Shared rules fragment) (mode : TargetMode) (unit : String) :
    resolve rules mode unit fragment = resolve rules .modern unit fragment := by
  cases fragment with
  | text text => rfl
  | construct construct => rw [resolve, resolve, RuleTable.resolve?_of_own?_eq_none h]

theorem exists_resolve_eq_ok (h : resolve rules .modern name fragment = .ok text)
    (mode : TargetMode) : ∃ other, ∀ unit, resolve rules mode unit fragment = .ok other := by
  cases fragment with
  | text text => exact ⟨text, fun _ ↦ rfl⟩
  | construct construct =>
    cases hmodern : rules.resolve? construct .modern with
    | none => simp [resolve, hmodern] at h
    | some _ =>
      obtain ⟨other, hother⟩ := RuleTable.exists_resolve?_eq_some hmodern mode
      exact ⟨other, fun _ ↦ by rw [resolve, hother]⟩

theorem exists_hasTexts (h : resolve rules .modern name fragment = .ok text) :
    ∃ texts, HasTexts rules fragment texts ∧ texts.modern = text := by
  obtain ⟨modern, hmodern⟩ := exists_resolve_eq_ok h .modern
  obtain ⟨legacy, hlegacy⟩ := exists_resolve_eq_ok h .legacy
  refine ⟨⟨modern, legacy⟩, ⟨fun mode unit ↦ ?_, fun hshared ↦ ?_⟩,
    Except.ok.inj ((hmodern name).symm.trans h)⟩
  · cases mode with
    | modern => exact hmodern unit
    | legacy => exact hlegacy unit
  · have hsame := resolve_of_shared hshared .legacy name
    rw [hmodern, hlegacy] at hsame
    exact Except.ok.inj hsame

theorem exists_forall₂_hasTexts (h : fragments.mapM (resolve rules .modern name) = .ok texts) :
    ∃ all, List.Forall₂ (HasTexts rules) fragments all := by
  obtain ⟨all, htexts, -⟩ := List.exists_forall₂_between
    ((Except.mapM_eq_ok_iff.1 h).imp fun fragment text hresolve ↦ exists_hasTexts hresolve)
  exact ⟨all, htexts⟩

theorem mapM_resolve {all : List TargetText} (h : List.Forall₂ (HasTexts rules) fragments all)
    (mode : TargetMode) (unit : String) :
    fragments.mapM (resolve rules mode unit) = .ok (all.map (·.on mode)) := by
  rw [Except.mapM_eq_ok_iff, List.forall₂_map_right_iff]
  exact h.imp fun fragment texts htexts ↦ htexts.resolve_eq mode unit

structure UnitText where
  name : String
  imports : OrderedSet String
  declarations : List TargetText
  definitions : List TargetText

namespace UnitText

variable (language) in
def declaration (mode : TargetMode) (u : UnitText) : String :=
  declarationBody language u.name (u.declarations.map (·.on mode))

variable (language) in
def definition (mode : TargetMode) (u : UnitText) : String :=
  definitionBody language u.name (u.definitions.map (·.on mode))

variable (language) in
def assembled (mode : TargetMode) (u : UnitText) : AssembledUnit where
  name := u.name
  imports := u.imports
  declaration := u.declaration language mode
  definition := u.definition language mode

end UnitText

variable (engine config unit) in
structure HasUnitText (u : UnitText) : Prop where
  name : IsCanonical engine.language.naming config unit u.name
  imports : u.imports = unit.imports
  declarations : List.Forall₂ (HasTexts engine.rules) unit.declarations u.declarations
  definitions : List.Forall₂ (HasTexts engine.rules) unit.definitions u.definitions

theorem HasUnitText.assembleUnit_eq {u : UnitText} (h : HasUnitText engine config unit u)
    (mode : TargetMode) :
    assembleUnit engine mode unit u.name = .ok (u.assembled engine.language mode) :=
  assembleUnit_eq_ok_iff.2 ⟨_, _, mapM_resolve h.declarations mode u.name,
    mapM_resolve h.definitions mode u.name, by rw [← h.imports]; rfl⟩

theorem HasUnitText.assembles {u : UnitText} (h : HasUnitText engine config unit u)
    (legacyTarget : Bool) :
    Assembles engine { config with legacyTarget } unit (u.assembled engine.language
      (RunConfig.targetMode { config with legacyTarget })) :=
  ⟨h.name, h.assembleUnit_eq _⟩

theorem exists_hasUnitText {a : AssembledUnit}
    (h : Assembles engine { config with legacyTarget := false } unit a) :
    ∃ u, HasUnitText engine config unit u ∧ u.assembled engine.language .modern = a := by
  obtain ⟨hname, hassemble⟩ := h
  obtain ⟨_, _, hdeclarations, hdefinitions, -⟩ := assembleUnit_eq_ok_iff.1 hassemble
  obtain ⟨declarations, hdeclarations⟩ := exists_forall₂_hasTexts hdeclarations
  obtain ⟨definitions, hdefinitions⟩ := exists_forall₂_hasTexts hdefinitions
  have hu : HasUnitText engine config unit ⟨a.name, unit.imports, declarations, definitions⟩ :=
    ⟨hname, rfl, hdeclarations, hdefinitions⟩
  exact ⟨_, hu, Except.ok.inj ((hu.assembleUnit_eq .modern).symm.trans hassemble)⟩

def sheets (config : RunConfig) (all : List UnitText) : List (String × List UnitText) :=
  if config.aggregate then [(config.aggregateName, all)] else all.map fun u ↦ (u.name, [u])

variable (language config mode) in
/-- The pair of files of a sheet on one target. Only the bodies look at the target. -/
def IsSheet (sheet : String × List UnitText) (files : ArtifactPair) : Prop :=
  IsLaidOut language config sheet.1 (sheet.2.map UnitText.name)
    (sheet.2.flatMap (·.imports.toList)).eraseDups
    ("\n".intercalate (sheet.2.map (UnitText.declaration language mode)))
    ("\n".intercalate (sheet.2.map (UnitText.definition language mode))) files

theorem isSheet_pair (config : RunConfig) (legacyTarget : Bool) (stem : String)
    (all : List UnitText) : IsSheet language config mode (stem, all)
      (pair language { config with legacyTarget } stem
        (all.map (UnitText.assembled language mode))) := by
  have h := isLaidOut_pair language { config with legacyTarget } stem
    (all.map (UnitText.assembled language mode))
  simp only [directives, List.map_map, List.flatMap_map, Function.comp_def] at h
  exact ⟨h.name, h.units, h.declaration, h.definition⟩

theorem map_name_of_isSheet {all : List (String × List UnitText)} {pairs : List ArtifactPair}
    (h : List.Forall₂ (IsSheet language config mode) all pairs) :
    pairs.map ArtifactPair.name = all.map Prod.fst :=
  (h.map_eq_map fun _ _ hsheet ↦ hsheet.name.symm).symm

theorem layOut_assembled {all : List UnitText} {legacyTarget : Bool}
    (h : layOut language { config with legacyTarget } (all.map (UnitText.assembled language mode)) =
      .ok generation) (mode' : TargetMode) (legacyTarget' : Bool) :
    ∃ generation', layOut language { config with legacyTarget := legacyTarget' }
        (all.map (UnitText.assembled language mode')) = .ok generation' ∧
      generation'.aggregate = generation.aggregate ∧
      List.Forall₂ (IsSheet language config mode) (sheets config all) generation.pairs ∧
      List.Forall₂ (IsSheet language config mode') (sheets config all) generation'.pairs := by
  rcases layOut_eq_ok_iff.1 h with ⟨haggregate, hid, rfl⟩ | ⟨haggregate, rfl⟩
  · refine ⟨_, layOut_eq_ok_iff.2 (.inl ⟨haggregate, hid, rfl⟩), rfl, ?_, ?_⟩
    all_goals
      rw [sheets, if_pos haggregate]
      exact .cons (isSheet_pair config _ _ all) .nil
  · refine ⟨_, layOut_eq_ok_iff.2 (.inr ⟨haggregate, rfl⟩), rfl, ?_, ?_⟩
    all_goals
      rw [sheets, if_neg (Bool.eq_false_iff.1 haggregate), List.forall₂_map_left_iff,
        List.map_map, List.forall₂_map_right_iff, List.forall₂_same]
      exact fun u _ ↦ isSheet_pair config _ u.name [u]

end Assembly

open Assembly

namespace Engine

variable {engine : Engine} {config : RunConfig} {units : List SourceUnit}

theorem exists_unitTexts_of_assemble {assembled : List AssembledUnit}
    (h : engine.assemble { config with legacyTarget := false } units = .ok assembled) :
    ∃ all, List.Forall₂ (HasUnitText engine config) units all ∧
      assembled = all.map (UnitText.assembled engine.language .modern) ∧
      ∀ legacyTarget, engine.assemble { config with legacyTarget } units = .ok (all.map
        (UnitText.assembled engine.language
          (RunConfig.targetMode { config with legacyTarget }))) := by
  obtain ⟨haccepted, hunits, hnodup⟩ := assemble_eq_ok_iff.1 h
  obtain ⟨all, htexts, heq⟩ := List.exists_forall₂_between
    (hunits.imp fun unit a ha ↦ exists_hasUnitText ha)
  rw [← List.forall₂_map_left_iff, List.forall₂_eq_eq_eq] at heq
  subst heq
  refine ⟨all, htexts, rfl, fun legacyTarget ↦ assemble_eq_ok_iff.2 ⟨haccepted, ?_, ?_⟩⟩
  · rw [List.forall₂_map_right_iff]
    exact htexts.imp fun unit u hu ↦ hu.assembles legacyTarget
  · rw [List.map_map] at hnodup ⊢
    exact hnodup

theorem generate_legacy_eq (h : ∀ kind, engine.rules.own? kind .legacy = none) :
    engine.generate { config with legacyTarget := true } units =
      engine.generate { config with legacyTarget := false } units := by
  have hresolve : resolve engine.rules .legacy = resolve engine.rules .modern := by
    funext unit fragment
    refine resolve_of_shared ?_ .legacy unit
    cases fragment with
    | text _ => trivial
    | construct construct => exact h construct.kind
  have hassemble : assembleUnit engine .legacy = assembleUnit engine .modern := by
    funext unit name
    rw [assembleUnit, hresolve, assembleUnit]
  have hlegacy : RunConfig.targetMode { config with legacyTarget := true } = .legacy := rfl
  have hmodern : RunConfig.targetMode { config with legacyTarget := false } = .modern := rfl
  have hnames : resolveNames engine.language.naming { config with legacyTarget := true } [] units =
      resolveNames engine.language.naming { config with legacyTarget := false } [] units := by
    apply resolveNames_congr
    rfl
  rw [generate_eq, generate_eq, assemble, assemble, hlegacy, hmodern, hassemble, hnames]
  rfl

/-- Where the modern run succeeds the legacy run does, with the same files around other bodies. -/
theorem exists_generate_legacy {modern : Generation}
    (h : engine.generate { config with legacyTarget := false } units = .ok modern) :
    ∃ legacy all, engine.generate { config with legacyTarget := true } units = .ok legacy ∧
      legacy.aggregate = modern.aggregate ∧
      List.Forall₂ (HasUnitText engine config) units all ∧
      List.Forall₂ (IsSheet engine.language config .modern) (sheets config all) modern.pairs ∧
      List.Forall₂ (IsSheet engine.language config .legacy) (sheets config all) legacy.pairs := by
  obtain ⟨assembled, hassembled, hlayout⟩ := generate_eq_ok_iff.1 h
  obtain ⟨all, htexts, rfl, hassemble⟩ := exists_unitTexts_of_assemble hassembled
  obtain ⟨legacy, hlegacy, haggregate, hsheets, hsheets'⟩ :=
    layOut_assembled hlayout .legacy true
  exact ⟨legacy, all, generate_eq_ok_iff.2 ⟨_, hassemble true, hlegacy⟩, haggregate, htexts,
    hsheets, hsheets'⟩

end Engine

end PairedSource
