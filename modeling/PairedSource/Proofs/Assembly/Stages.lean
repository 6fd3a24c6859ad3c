import PairedSource.Proofs.Assembly.Names
import PairedSource.Proofs.Pointwise

namespace PairedSource

open Except

namespace Assembly

variable {engine : Engine} {language : Language} {config : RunConfig} {mode : TargetMode}
  {unit : SourceUnit} {units : List SourceUnit} {name : String} {names : List String}
  {a a' : AssembledUnit} {assembled : List AssembledUnit} {generation : Generation}

def layOut (language : Language) (config : RunConfig) (assembled : List AssembledUnit) :
    Except Error Generation :=
  if config.aggregate then
    if Identifier.isIdentifier config.aggregateName then
      .ok { aggregate := true, pairs := [pair language config config.aggregateName assembled] }
    else .error (.invalidKey config.aggregateName config.aggregateName .notAnIdentifier)
  else
    .ok {
      aggregate := false
      pairs := assembled.map fun unit ↦ pair language config unit.name [unit] }

theorem layOut_eq_ok_iff : layOut language config assembled = .ok generation ↔
    (config.aggregate = true ∧ Identifier.isIdentifier config.aggregateName = true ∧
      generation = {
        aggregate := true
        pairs := [pair language config config.aggregateName assembled] }) ∨
    (config.aggregate = false ∧ generation = {
      aggregate := false
      pairs := assembled.map fun unit ↦ pair language config unit.name [unit] }) := by
  unfold layOut
  cases config.aggregate <;> cases Identifier.isIdentifier config.aggregateName <;>
    simp [eq_comm]

theorem layOut_eq_error_iff {e : Error} : layOut language config assembled = .error e ↔
    config.aggregate = true ∧ Identifier.isIdentifier config.aggregateName = false ∧
      e = .invalidKey config.aggregateName config.aggregateName .notAnIdentifier := by
  unfold layOut
  cases config.aggregate <;> cases Identifier.isIdentifier config.aggregateName <;>
    simp [eq_comm]

variable (engine config) in
/-- A unit under its own name, with its fragments as the target wants them. -/
def Assembles (unit : SourceUnit) (a : AssembledUnit) : Prop :=
  IsCanonical engine.language.naming config unit a.name ∧
    assembleUnit engine config.targetMode unit a.name = .ok a

theorem assembleUnit_eq_ok_iff : assembleUnit engine mode unit name = .ok a ↔
    ∃ declarations definitions,
      unit.declarations.mapM (resolve engine.rules mode name) = .ok declarations ∧
      unit.definitions.mapM (resolve engine.rules mode name) = .ok definitions ∧
      a = {
        name
        imports := unit.imports
        declaration := declarationBody engine.language name declarations
        definition := definitionBody engine.language name definitions } := by
  simp only [assembleUnit, Except.bind_eq_ok_iff]
  constructor
  · intro h
    obtain ⟨declarations, hdeclarations, definitions, hdefinitions, heq⟩ := h
    exact ⟨declarations, definitions, hdeclarations, hdefinitions, (Except.ok.inj heq).symm⟩
  · intro h
    obtain ⟨declarations, definitions, hdeclarations, hdefinitions, rfl⟩ := h
    exact ⟨declarations, hdeclarations, definitions, hdefinitions, rfl⟩

theorem name_of_assembleUnit (h : assembleUnit engine mode unit name = .ok a) : a.name = name := by
  obtain ⟨_, _, -, -, rfl⟩ := assembleUnit_eq_ok_iff.1 h
  rfl

theorem Assembles.imports_eq (h : Assembles engine config unit a) : a.imports = unit.imports := by
  obtain ⟨_, _, -, -, heq⟩ := assembleUnit_eq_ok_iff.1 h.2
  exact congrArg AssembledUnit.imports heq

theorem failsWith_resolve (rules : RuleTable) (mode : TargetMode) (unit : String)
    (fragment : Fragment) :
    FailsWith (fun e ↦ ∃ kind, e = .missingSubstitution unit kind)
      (resolve rules mode unit fragment) := by
  unfold resolve
  split
  · exact .ok _
  · split
    · exact .ok _
    · exact .error ⟨_, rfl⟩

theorem failsWith_assembleUnit (engine : Engine) (mode : TargetMode) (unit : SourceUnit)
    (name : String) :
    FailsWith (fun e ↦ ∃ kind, e = .missingSubstitution name kind)
      (assembleUnit engine mode unit name) :=
  (FailsWith.mapM (failsWith_resolve engine.rules mode name) unit.declarations).bind fun _ ↦
    (FailsWith.mapM (failsWith_resolve engine.rules mode name) unit.definitions).bind fun _ ↦
      .ok _

theorem failsWith_layOut (language : Language) (config : RunConfig)
    (assembled : List AssembledUnit) :
    FailsWith (· = .invalidKey config.aggregateName config.aggregateName .notAnIdentifier)
      (layOut language config assembled) := by
  unfold layOut
  split
  · split
    · exact .ok _
    · exact .error rfl
  · exact .ok _

theorem Assembles.unique (h : Assembles engine config unit a)
    (h' : Assembles engine config unit a') : a = a' := by
  have hname : a.name = a'.name := Except.ok.inj (h.1.symm.trans h'.1)
  exact Except.ok.inj (h.2.symm.trans (hname ▸ h'.2))

theorem forall₂_assembles_iff : List.Forall₂ (Assembles engine config) units assembled ∧
      assembled.map AssembledUnit.name = names ↔
    List.Forall₂ (IsCanonical engine.language.naming config) units names ∧
      (units.zip names).mapM
        (fun (unit, name) ↦ assembleUnit engine config.targetMode unit name) = .ok assembled := by
  rw [Except.mapM_eq_ok_iff]
  constructor
  · intro h
    obtain ⟨h, rfl⟩ := h
    induction h with
    | nil => exact ⟨.nil, .nil⟩
    | cons ha _ ih => exact ⟨.cons ha.1 ih.1, .cons ha.2 ih.2⟩
  · intro h
    obtain ⟨hnames, hassembled⟩ := h
    induction hnames generalizing assembled with
    | nil =>
      cases hassembled
      exact ⟨.nil, rfl⟩
    | cons hname _ ih =>
      cases hassembled with
      | cons ha hassembled =>
        obtain ⟨hrest, hmap⟩ := ih hassembled
        obtain rfl := name_of_assembleUnit ha
        exact ⟨.cons ⟨hname, ha⟩ hrest, by rw [List.map_cons, hmap]⟩

end Assembly

open Assembly

namespace Engine

variable {engine : Engine} {config : RunConfig} {units : List SourceUnit}
  {assembled : List AssembledUnit} {generation : Generation}

/-- All that comes before the files: names are settled and the text of each unit is made. -/
def assemble (engine : Engine) (config : RunConfig) (units : List SourceUnit) :
    Except Error (List AssembledUnit) := do
  checkPrefix engine.language.naming config
  let names ← resolveNames engine.language.naming config [] units
  checkSymbols units names
  (units.zip names).mapM fun (unit, name) ↦ assembleUnit engine config.targetMode unit name

theorem generate_eq (engine : Engine) (config : RunConfig) (units : List SourceUnit) :
    engine.generate config units =
      engine.assemble config units >>= layOut engine.language config := by
  simp only [generate, assemble, bind_assoc]
  congr! 7 with _ names _ assembled
  unfold layOut
  cases config.aggregate <;> cases Identifier.isIdentifier config.aggregateName <;> rfl

theorem assemble_congr {other : RunConfig} (hnaming : other.namePrefix = config.namePrefix)
    (htarget : other.legacyTarget = config.legacyTarget) :
    engine.assemble other units = engine.assemble config units := by
  have hmode : other.targetMode = config.targetMode := by
    rw [RunConfig.targetMode, htarget, RunConfig.targetMode]
  have hcheck : checkPrefix engine.language.naming other =
      checkPrefix engine.language.naming config := by
    rw [checkPrefix, hnaming, checkPrefix]
  rw [assemble, hcheck, hmode, resolveNames_congr hnaming, assemble]

theorem generate_eq_layOut {other : RunConfig} (hnaming : other.namePrefix = config.namePrefix)
    (htarget : other.legacyTarget = config.legacyTarget) :
    engine.generate other units =
      engine.assemble config units >>= layOut engine.language other := by
  rw [generate_eq, assemble_congr hnaming htarget]

/-- Units are assembled where each of them is and every name of the run, be it of a type or a
symbol, is there once. -/
theorem assemble_eq_ok_iff : engine.assemble config units = .ok assembled ↔
    checkPrefix engine.language.naming config = .ok ⟨⟩ ∧
      List.Forall₂ (Assembles engine config) units assembled ∧
      (assembled.map AssembledUnit.name ++ units.flatMap (·.symbols.toList)).Nodup := by
  simp only [assemble, Except.bind_eq_ok_iff]
  constructor
  · intro h
    obtain ⟨⟨⟩, haccepted, names, hnames, ⟨⟩, hsymbols, hassembled⟩ := h
    obtain ⟨hcanonical, hnodup⟩ := resolveNames_eq_ok_iff.1 hnames
    obtain ⟨hassembles, rfl⟩ := forall₂_assembles_iff.2 ⟨hcanonical, hassembled⟩
    rw [checkSymbols_eq_ok_iff hcanonical.length_eq.symm hnodup] at hsymbols
    exact ⟨haccepted, hassembles, hsymbols⟩
  · intro h
    obtain ⟨haccepted, hassembles, hall⟩ := h
    obtain ⟨hcanonical, hassembled⟩ := forall₂_assembles_iff.1 ⟨hassembles, rfl⟩
    have hnodup := (List.nodup_append.1 hall).1
    refine ⟨⟨⟩, haccepted, _, resolveNames_eq_ok_iff.2 ⟨hcanonical, hnodup⟩, ⟨⟩, ?_, hassembled⟩
    rwa [checkSymbols_eq_ok_iff hcanonical.length_eq.symm hnodup]

theorem generate_eq_ok_iff : engine.generate config units = .ok generation ↔
    ∃ assembled, engine.assemble config units = .ok assembled ∧
      layOut engine.language config assembled = .ok generation := by
  rw [generate_eq, Except.bind_eq_ok_iff]

end Engine

theorem names_of_generate {engine : Engine} {config : RunConfig} {units : List SourceUnit}
    {generation : Generation} (h : engine.generate config units = .ok generation) :
    List.Forall₂ (fun unit name ↦
      engine.language.naming.typeName unit.key config.namePrefix = .ok name)
      units generation.unitNames ∧
    (generation.unitNames ++ units.flatMap (·.symbols.toList)).Nodup := by
  obtain ⟨assembled, hassembled, hlayout⟩ := Engine.generate_eq_ok_iff.1 h
  obtain ⟨-, hunits, hnodup⟩ := Engine.assemble_eq_ok_iff.1 hassembled
  have hnames : generation.unitNames = assembled.map AssembledUnit.name := by
    rcases layOut_eq_ok_iff.1 hlayout with ⟨-, -, rfl⟩ | ⟨-, rfl⟩
    · simp [Generation.unitNames, pair]
    · rw [Generation.unitNames, List.flatMap_map, List.map_eq_flatMap]
      rfl
  rw [hnames]
  exact ⟨(forall₂_assembles_iff.1 ⟨hunits, rfl⟩).1, hnodup⟩

end PairedSource
