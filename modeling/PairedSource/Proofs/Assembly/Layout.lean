import PairedSource.ObjectiveC
import PairedSource.Proofs.Assembly.Stages
import PairedSource.Proofs.OrderedSet
import PairedSource.Proofs.Text.Lines

namespace PairedSource

namespace Assembly

variable {engine : Engine} {language : Language} {config : RunConfig} {stem : String}
  {unit : SourceUnit} {units : List SourceUnit} {a : AssembledUnit}
  {assembled : List AssembledUnit} {files : ArtifactPair}

def bannerText (language : Language) (config : RunConfig) : String :=
  let comment (s : String) : String := language.lineComment ++ s ++ "\n"
  comment "" ++
    comment s!" This file is generated from {config.inputFileName} by {config.toolName}." ++
    comment " Please do not edit." ++ comment "" ++ "\n"

theorem banner_eq_bannerText (language : Language) (config : RunConfig) :
    banner language config = bannerText language config := by
  rw [← String.toList_inj]
  simp [banner, bannerText, CodeBuilder.comment, CodeBuilder.line, CodeBuilder.blank,
    CodeBuilder.margin]

theorem localImportBlock_eq (language : Language) (file : String) :
    localImportBlock language file = language.localImportLine file ++ "\n\n" := by
  rw [← String.toList_inj]
  simp [localImportBlock, CodeBuilder.line, CodeBuilder.blank, CodeBuilder.margin]

def importText (language : Language) (directives : List String) : String :=
  String.join (directives.map (language.importLine · ++ "\n")) ++
    if directives.isEmpty then "" else "\n"

theorem importBlock_eq (language : Language) (imports : OrderedSet String) :
    importBlock language imports = importText language imports.toList := by
  have hlines : ({ indent := language.indent } : CodeBuilder).each imports.toList
      (fun b directive ↦ b.line (language.importLine directive)) =
      ({ indent := language.indent } : CodeBuilder).addLines
        (imports.toList.map language.importLine) := by
    rw [← CodeBuilder.each_line, CodeBuilder.each, CodeBuilder.each, List.foldl_map]
  have htext := CodeBuilder.text_addLines_start language.indent
    (imports.toList.map language.importLine)
  rw [List.map_map, Function.comp_def] at htext
  rw [importBlock, hlines, importText, ← htext, OrderedSet.isEmpty]
  cases imports.toList.isEmpty
  · rfl
  · exact String.append_empty.symm

def directives (units : List AssembledUnit) : List String :=
  (units.flatMap (·.imports.toList)).eraseDups

theorem toList_foldl_merge (units : List AssembledUnit) :
    (units.foldl (fun (s : OrderedSet String) u ↦ s.merge u.imports) ∅).toList =
      directives units := by
  rw [OrderedSet.foldl_merge, OrderedSet.toList_insertAll_eq_eraseDups]
  rfl

variable (language config) in
/-- A pair of files over given directives and bodies. The directives head the declaration, and the
definition only if there is none. -/
structure IsLaidOut (stem : String) (units directives : List String)
    (declaration definition : String) (files : ArtifactPair) : Prop where
  name : files.name = stem
  units : files.units = units
  declaration : files.declaration =
    if config.skipDeclaration then none
    else some {
      kind := .declaration
      fileName := language.declarationFile stem
      content := bannerText language config ++ importText language directives ++ declaration }
  definition : files.definition = {
    kind := .definition
    fileName := language.definitionFile stem
    content := bannerText language config ++
      (if config.skipDeclaration then importText language directives
        else language.localImportLine (language.declarationFile stem) ++ "\n\n") ++ definition }

theorem isLaidOut_pair (language : Language) (config : RunConfig) (stem : String)
    (units : List AssembledUnit) :
    IsLaidOut language config stem (units.map AssembledUnit.name) (directives units)
      ("\n".intercalate (units.map AssembledUnit.declaration))
      ("\n".intercalate (units.map AssembledUnit.definition))
      (pair language config stem units) := by
  have himports := importBlock_eq language
    (units.foldl (fun (s : OrderedSet String) u ↦ s.merge u.imports) ∅)
  rw [toList_foldl_merge] at himports
  refine ⟨rfl, rfl, ?_, ?_⟩
  · simp only [pair, himports, banner_eq_bannerText]
  · simp only [pair, himports, banner_eq_bannerText, localImportBlock_eq]

theorem isLaidOut_pair_singleton (language : Language) (config : RunConfig) (unit : AssembledUnit) :
    IsLaidOut language config unit.name [unit.name] unit.imports.toList unit.declaration
      unit.definition (pair language config unit.name [unit]) := by
  have hdirectives : directives [unit] = unit.imports.toList := by
    rw [directives, List.flatMap_singleton, List.eraseDups_of_nodup unit.imports.nodup]
  have h := isLaidOut_pair language config unit.name [unit]
  simpa only [hdirectives, List.map_cons, List.map_nil, String.intercalate_singleton] using h

variable (language config) in
def IsHeadedBy (directives : List String) (files : ArtifactPair) : Prop :=
  ∃ stem units declaration definition,
    IsLaidOut language config stem units directives declaration definition files

theorem directives_eq (h : List.Forall₂ (Assembles engine config) units assembled) :
    directives assembled = (units.flatMap (·.imports.toList)).eraseDups := by
  have hflat : assembled.flatMap (·.imports.toList) = units.flatMap (·.imports.toList) := by
    induction h with
    | nil => rfl
    | cons ha _ ih => rw [List.flatMap_cons, List.flatMap_cons, ih, ha.imports_eq]
  rw [directives, hflat]

theorem count_directive {directive : String} (hunit : unit ∈ units)
    (h : directive ∈ unit.imports) :
    (units.flatMap (·.imports.toList)).eraseDups.count directive = 1 := by
  apply List.count_eq_one_of_mem (List.nodup_eraseDups _)
  rw [List.mem_eraseDups]
  exact List.mem_flatMap.2 ⟨unit, hunit, h⟩

section Heads

variable {generation : Generation} (h : engine.generate config units = .ok generation)

include h

theorem isHeadedBy_of_single (hsingle : config.aggregate = false) :
    List.Forall₂ (fun unit files ↦
      IsHeadedBy engine.language config unit.imports.toList files) units generation.pairs := by
  obtain ⟨assembled, hassembled, hlayout⟩ := Engine.generate_eq_ok_iff.1 h
  obtain ⟨-, hunits, -⟩ := Engine.assemble_eq_ok_iff.1 hassembled
  rcases layOut_eq_ok_iff.1 hlayout with ⟨hjoined, -⟩ | ⟨-, rfl⟩
  · rw [hsingle] at hjoined
    cases hjoined
  · rw [List.forall₂_map_right_iff]
    refine hunits.imp fun unit a ha ↦ ?_
    have hlaidOut := isLaidOut_pair_singleton engine.language config a
    rw [ha.imports_eq] at hlaidOut
    exact ⟨_, _, _, _, hlaidOut⟩

theorem isHeadedBy_of_joined (hjoined : config.aggregate = true) :
    ∃ files, generation.pairs = [files] ∧ IsHeadedBy engine.language config
      (units.flatMap (·.imports.toList)).eraseDups files := by
  obtain ⟨assembled, hassembled, hlayout⟩ := Engine.generate_eq_ok_iff.1 h
  obtain ⟨-, hunits, -⟩ := Engine.assemble_eq_ok_iff.1 hassembled
  rcases layOut_eq_ok_iff.1 hlayout with ⟨-, -, rfl⟩ | ⟨hsingle, -⟩
  · have hlaidOut := isLaidOut_pair engine.language config config.aggregateName assembled
    rw [directives_eq hunits] at hlaidOut
    exact ⟨_, rfl, _, _, _, _, hlaidOut⟩
  · rw [hjoined] at hsingle
    cases hsingle

end Heads

variable (engine config) (sources : List SourceUnit) in
/-- Without the declaration its import block heads the definition, in place of the import of the
declaration, and all else stays. -/
structure MovesImports (skipped full : ArtifactPair) : Prop where
  name : skipped.name = full.name
  units : skipped.units = full.units
  fileName : skipped.definition.fileName = full.definition.fileName
  declaration_eq_none : skipped.declaration = none
  contents : ∃ (assembled : List AssembledUnit) (declaration : Artifact),
    full.units = assembled.map AssembledUnit.name ∧
    (∀ a ∈ assembled, ∃ source ∈ sources, Assembles engine config source a) ∧
    full.declaration = some declaration ∧
    declaration.content = bannerText engine.language config ++
      importText engine.language (directives assembled) ++
      "\n".intercalate (assembled.map AssembledUnit.declaration) ∧
    full.definition.content = bannerText engine.language config ++
      (engine.language.localImportLine declaration.fileName ++ "\n\n") ++
      "\n".intercalate (assembled.map AssembledUnit.definition) ∧
    skipped.definition.content = bannerText engine.language config ++
      importText engine.language (directives assembled) ++
      "\n".intercalate (assembled.map AssembledUnit.definition)

theorem movesImports_pair {sources : List SourceUnit}
    (h : ∀ a ∈ assembled, ∃ source ∈ sources, Assembles engine config source a) (stem : String) :
    MovesImports engine config sources
      (pair engine.language { config with skipDeclaration := true } stem assembled)
      (pair engine.language { config with skipDeclaration := false } stem assembled) := by
  have hskipped :=
    isLaidOut_pair engine.language { config with skipDeclaration := true } stem assembled
  have hfull :=
    isLaidOut_pair engine.language { config with skipDeclaration := false } stem assembled
  refine ⟨rfl, rfl, rfl, hskipped.declaration, assembled, _, rfl, h, hfull.declaration, rfl, ?_, ?_⟩
  · rw [hfull.definition]
    rfl
  · rw [hskipped.definition]
    rfl

end Assembly

open Except Assembly

section Modes

variable (engine : Engine) (config : RunConfig) (units : List SourceUnit)

theorem generate_single_eq :
    engine.generate { config with aggregate := false } units =
      engine.assemble config units >>= fun assembled ↦ .ok {
        aggregate := false
        pairs := assembled.map fun a ↦ pair engine.language config a.name [a] } :=
  Engine.generate_eq_layOut rfl rfl

theorem generate_joined_eq :
    engine.generate { config with aggregate := true } units =
      engine.assemble config units >>= fun assembled ↦
        if Identifier.isIdentifier config.aggregateName then .ok {
          aggregate := true
          pairs := [pair engine.language config config.aggregateName assembled] }
        else
          .error (.invalidKey config.aggregateName config.aggregateName .notAnIdentifier) :=
  Engine.generate_eq_layOut rfl rfl

/-- The aggregate run glues together what the run for each unit makes: the same bodies in the same
order, under one banner and with every import once. It fails as that run does, or for its name. -/
theorem aggregate_joins_units :
    ((∃ joined, engine.generate { config with aggregate := true } units = .ok joined) ↔
      (∃ single, engine.generate { config with aggregate := false } units = .ok single) ∧
        Identifier.isIdentifier config.aggregateName = true) ∧
    (∀ e, engine.generate { config with aggregate := false } units = .error e →
      engine.generate { config with aggregate := true } units = .error e) ∧
    ∀ single joined, engine.generate { config with aggregate := false } units = .ok single →
      engine.generate { config with aggregate := true } units = .ok joined →
      ∃ assembled,
        List.Forall₂ (fun unit a ↦ Assembles engine config unit a ∧ a.imports = unit.imports)
          units assembled ∧
        List.Forall₂ (fun a files ↦ IsLaidOut engine.language config a.name [a.name]
          a.imports.toList a.declaration a.definition files) assembled single.pairs ∧
        ∃ directives files, directives = (units.flatMap (·.imports.toList)).eraseDups ∧
          (∀ unit ∈ units, ∀ directive ∈ unit.imports, directives.count directive = 1) ∧
          joined.pairs = [files] ∧
          IsLaidOut engine.language config config.aggregateName
            (assembled.map AssembledUnit.name) directives
            ("\n".intercalate (assembled.map AssembledUnit.declaration))
            ("\n".intercalate (assembled.map AssembledUnit.definition)) files := by
  rw [generate_single_eq, generate_joined_eq]
  cases hassembled : engine.assemble config units with
  | error e => simp [error_bind]
  | ok assembled =>
    obtain ⟨-, hunits, -⟩ := Engine.assemble_eq_ok_iff.1 hassembled
    simp only [ok_bind]
    refine ⟨?_, nofun, fun single joined hsingle hjoined ↦ ?_⟩
    · cases Identifier.isIdentifier config.aggregateName <;> simp
    · obtain rfl := Except.ok.inj hsingle
      split at hjoined
      · obtain rfl := Except.ok.inj hjoined
        refine ⟨assembled, hunits.imp fun unit a h ↦ ⟨h, h.imports_eq⟩, ?_, _, _, rfl,
          fun unit hunit directive ↦ count_directive hunit, rfl, ?_⟩
        · rw [List.forall₂_map_right_iff, List.forall₂_same]
          exact fun a _ ↦ isLaidOut_pair_singleton engine.language config a
        · rw [← directives_eq hunits]
          exact isLaidOut_pair engine.language config config.aggregateName assembled
      · cases hjoined

end Modes

namespace ObjectiveC

def panels : List SourceUnit :=
  [((({ key := "panel" } : SourceUnit).addImport "<UIKit/UIKit.h>").addSymbol
      "PanelTitle").addDefinition (.text "- (void)show {}"),
    ({ key := "side panel" } : SourceUnit).addImport "<Foundation/Foundation.h>"]

def panelsConfig : RunConfig where
  input := ⟨"panels.toml"⟩

theorem generates_panels (aggregate : Bool) :
    ∃ generation, engine.generate { panelsConfig with aggregate } panels = .ok generation := by
  have hsome : (engine.generate { panelsConfig with aggregate } panels).toOption.isSome = true := by
    cases aggregate <;> decide
  obtain ⟨generation, h⟩ := Option.isSome_iff_exists.1 hsome
  exact ⟨generation, Except.toOption_eq_some_iff.1 h⟩

theorem aggregate_joins_units_panels : ∃ single joined,
    engine.generate { panelsConfig with aggregate := false } panels = .ok single ∧
      engine.generate { panelsConfig with aggregate := true } panels = .ok joined ∧
      ∃ files, joined.pairs = [files] ∧
        files.name = panelsConfig.aggregateName ∧
        files.units = single.pairs.map ArtifactPair.name := by
  obtain ⟨single, hsingle⟩ := generates_panels false
  obtain ⟨joined, hjoined⟩ := generates_panels true
  obtain ⟨-, -, hboth⟩ := aggregate_joins_units engine panelsConfig panels
  obtain ⟨assembled, -, hpairs, directives, files, -, -, heq, hlaidOut⟩ :=
    hboth single joined hsingle hjoined
  refine ⟨single, joined, hsingle, hjoined, files, heq, hlaidOut.name, ?_⟩
  rw [hlaidOut.units, ← List.forall₂_eq_eq_eq, List.forall₂_map_left_iff,
    List.forall₂_map_right_iff]
  exact hpairs.imp fun a files h ↦ h.name.symm

end ObjectiveC

section Skipping

variable (engine : Engine) (config : RunConfig) (units : List SourceUnit)

/-- Skipping declarations moves the imports and changes nothing else, not even what fails. -/
theorem skipping_moves_imports :
    Except.Alike (fun skipped full : Generation ↦ skipped.aggregate = full.aggregate ∧
        List.Forall₂ (MovesImports engine config units) skipped.pairs full.pairs)
      (engine.generate { config with skipDeclaration := true } units)
      (engine.generate { config with skipDeclaration := false } units) := by
  have hgenerate (skipDeclaration : Bool) : engine.generate { config with skipDeclaration } units =
      engine.assemble config units >>= layOut engine.language { config with skipDeclaration } :=
    Engine.generate_eq_layOut rfl rfl
  rw [hgenerate true, hgenerate false]
  apply Except.Alike.bind
  intro assembled hassembled
  obtain ⟨-, hunits, -⟩ := Engine.assemble_eq_ok_iff.1 hassembled
  have hsource : ∀ a ∈ assembled, ∃ source ∈ units, Assembles engine config source a :=
    fun a ha ↦ hunits.exists_of_mem_right ha
  unfold layOut
  cases config.aggregate with
  | true =>
    cases Identifier.isIdentifier config.aggregateName with
    | true => exact .ok ⟨rfl, .cons (movesImports_pair hsource config.aggregateName) .nil⟩
    | false => exact .error _
  | false =>
    refine .ok ⟨rfl, ?_⟩
    rw [List.forall₂_map_left_iff, List.forall₂_map_right_iff, List.forall₂_same]
    intro a ha
    apply movesImports_pair
    intro b hb
    obtain rfl := List.mem_singleton.1 hb
    exact hsource b ha

end Skipping

end PairedSource
