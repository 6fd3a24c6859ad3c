import PairedSource.Artifact
import PairedSource.Model
import PairedSource.Population

namespace PairedSource

structure Engine where
  language : Language
  rules : RuleTable

structure AssembledUnit where
  name : String
  imports : OrderedSet String
  declaration : String
  definition : String

namespace Assembly

/-- Names units one after the other; `taken` holds the names so far with the keys they came from. -/
def resolveNames (naming : NamingPolicy) (config : RunConfig) (taken : List (String × String)) :
    List SourceUnit → Except Error (List String)
  | [] => .ok []
  | unit :: rest =>
    match naming.typeName unit.key config.namePrefix with
    | .error reason => .error (.invalidKey unit.key unit.key reason)
    | .ok name =>
      match taken.lookup name with
      | some first => .error (.duplicateUnitName name first unit.key)
      | none => (resolveNames naming config (taken ++ [(name, unit.key)]) rest).map (name :: ·)

def claimSymbols (key : String) (owners : List (String × String)) :
    List String → Except Error (List (String × String))
  | [] => .ok owners
  | symbol :: rest =>
    match owners.lookup symbol with
    | some first => .error (.duplicateSymbol symbol first key)
    | none => claimSymbols key (owners ++ [(symbol, key)]) rest

/-- Type names and symbols share one space of names, whatever file they end up in. The type names
are claimed first. -/
def checkSymbols (units : List SourceUnit) (names : List String) : Except Error Unit := do
  let owners := names.zip (units.map SourceUnit.key)
  let _ ← units.foldlM (fun owners unit ↦ claimSymbols unit.key owners unit.symbols.toList) owners
  return ⟨⟩

def resolve (rules : RuleTable) (mode : TargetMode) (unit : String) :
    Fragment → Except Error String
  | .text text => .ok text
  | .construct construct =>
    match rules.resolve? construct mode with
    | some text => .ok text
    | none => .error (.missingSubstitution unit construct.kind)

def declarationBody (language : Language) (name : String) (fragments : List String) : String :=
  let start : CodeBuilder := { indent := language.indent }
  (((start.line (language.openDeclaration name)).blank.each fragments CodeBuilder.paragraph).when
    (!fragments.isEmpty) CodeBuilder.blank).line (language.closeDeclaration name) |>.text

def definitionBody (language : Language) (name : String) (fragments : List String) : String :=
  let start : CodeBuilder := { indent := language.indent }
  ((start.line (language.openDefinition name)).blank.each fragments
    fun b fragment ↦ (b.paragraph fragment).blank).line (language.closeDefinition name) |>.text

def assembleUnit (engine : Engine) (mode : TargetMode) (unit : SourceUnit) (name : String) :
    Except Error AssembledUnit := do
  let declarations ← unit.declarations.mapM (resolve engine.rules mode name)
  let definitions ← unit.definitions.mapM (resolve engine.rules mode name)
  return {
    name
    imports := unit.imports
    declaration := declarationBody engine.language name declarations
    definition := definitionBody engine.language name definitions }

def banner (language : Language) (config : RunConfig) : String :=
  let start : CodeBuilder := { indent := language.indent }
  ((((start.comment language.lineComment "").comment language.lineComment
    s!"This file is generated from {config.inputFileName} by {config.toolName}.").comment
    language.lineComment "Please do not edit.").comment language.lineComment "").blank.text

def importBlock (language : Language) (imports : OrderedSet String) : String :=
  let start : CodeBuilder := { indent := language.indent }
  ((start.each imports.toList fun b directive ↦ b.line (language.importLine directive)).when
    (!imports.isEmpty) CodeBuilder.blank).text

def localImportBlock (language : Language) (file : String) : String :=
  let start : CodeBuilder := { indent := language.indent }
  (start.line (language.localImportLine file)).blank.text

/-- The pair of files for some units. Without a declaration the imports go to the definition. -/
def pair (language : Language) (config : RunConfig) (stem : String) (units : List AssembledUnit) :
    ArtifactPair :=
  let imports := units.foldl (fun (s : OrderedSet String) u ↦ s.merge u.imports) ∅
  let block := importBlock language imports
  let head := banner language config
  let declarationFile := language.declarationFile stem
  let declaration : Artifact := {
    kind := .declaration
    fileName := declarationFile
    content := head ++ block ++ "\n".intercalate (units.map AssembledUnit.declaration) }
  let definition : Artifact := {
    kind := .definition
    fileName := language.definitionFile stem
    content := head ++ (if config.skipDeclaration then block
      else localImportBlock language declarationFile) ++
      "\n".intercalate (units.map AssembledUnit.definition) }
  { name := stem
    units := units.map AssembledUnit.name
    declaration := if config.skipDeclaration then none else some declaration
    definition }

end Assembly

open Assembly

/-- The files of some units. All names are settled before any text is made. -/
def Engine.generate (engine : Engine) (config : RunConfig) (units : List SourceUnit) :
    Except Error Generation := do
  checkPrefix engine.language.naming config
  let names ← resolveNames engine.language.naming config [] units
  checkSymbols units names
  let assembled ← (units.zip names).mapM fun (unit, name) ↦
    assembleUnit engine config.targetMode unit name
  if config.aggregate then
    if !Identifier.isIdentifier config.aggregateName then
      throw (.invalidKey config.aggregateName config.aggregateName .notAnIdentifier)
    return {
      aggregate := true
      pairs := [pair engine.language config config.aggregateName assembled] }
  else
    return {
      aggregate := false
      pairs := assembled.map fun unit ↦ pair engine.language config unit.name [unit] }

end PairedSource
