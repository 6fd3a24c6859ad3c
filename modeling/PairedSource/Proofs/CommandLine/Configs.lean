import PairedSource.CommandLine.Program
import PairedSource.Proofs.CommandLine.Layers
import PairedSource.Proofs.CommandLine.Spelling
import PairedSource.Proofs.Settings.File

namespace PairedSource.CommandLine

open Except Occurrence

variable {argv rest : List String} {specs : List OptionSpec} {arguments : Arguments}
  {command : Command} {said : List Occurrence} {tree : FileTree} {configs : List RunConfig}

namespace Arguments

theorem exists_says_of_read (h : Arguments.read specs argv = .ok arguments) :
    ∃ said, Says specs argv said ∧ Sums arguments said := by
  obtain ⟨summed, hsummed, h⟩ := bind_eq_ok_iff.1 h
  have hsame : summed = arguments := by
    split at h
    · cases h
    · exact Except.ok.inj h
  subst hsame
  refine ⟨_, says_of_isRead fun refusal hmem ↦ ?_, sums_of_foldlM hsummed⟩
  -- What is refused is added nowhere.
  obtain ⟨before, after, hsplit⟩ := List.append_of_mem hmem
  rw [hsplit, List.foldlM_append, bind_eq_ok_iff] at hsummed
  obtain ⟨_, -, hsummed⟩ := hsummed
  rw [List.foldlM_cons, bind_eq_ok_iff] at hsummed
  obtain ⟨_, hrefused, -⟩ := hsummed
  cases hrefused

end Arguments

theorem Command.exists_of_read (h : Command.read argv = .ok command) :
    ∃ before name specs rest, argv = before ++ name :: rest ∧
      (name = "generate" ∧ specs = generateOptions ∨ name = "check" ∧ specs = checkOptions) ∧
      (∀ argument ∈ before, firstStop? (ofArgument globalOptions argument).1 = none) ∧
      Arguments.read specs rest = .ok command.arguments := by
  fun_induction Command.read argv with
  | case1 => cases h
  | case2 argv =>
    obtain ⟨arguments, harguments, rfl⟩ := map_eq_ok_iff.1 h
    exact ⟨[], "generate", _, argv, rfl, .inl ⟨rfl, rfl⟩, fun _ h ↦ absurd h List.not_mem_nil,
      harguments⟩
  | case3 argv =>
    obtain ⟨arguments, harguments, rfl⟩ := map_eq_ok_iff.1 h
    exact ⟨[], "check", _, argv, rfl, .inr ⟨rfl, rfl⟩, fun _ h ↦ absurd h List.not_mem_nil,
      harguments⟩
  | case4 => cases h
  | case5 => cases h
  | case6 argument argv _ _ _ _ stop => cases h
  | case7 argument argv _ _ _ _ hstop ih =>
    obtain ⟨before, name, specs, rest, rfl, hname, hbefore, hread⟩ := ih h
    refine ⟨argument :: before, name, specs, rest, rfl, hname, fun other hother ↦ ?_, hread⟩
    rcases List.mem_cons.1 hother with rfl | hother
    · exact hstop
    · exact hbefore other hother

open Settings (textUnder booleanUnder)

variable (said) in
/-- The configuration for an input: what the command line says, then what the entries of a settings
file in some directory say, then what goes without saying. -/
def resolved (directory : Path) (fields : List (String × Toml.Keyed Toml.Value)) (input : Path) :
    RunConfig where
  input
  namePrefix := (lastValue? .namePrefix said <|> textUnder "prefix" fields).getD ""
  searchPath := (lastValue? .searchPath said).map Path.mk <|>
    (textUnder "search-path" fields).map fun text ↦ directory.join ⟨text⟩
  legacyTarget :=
    (lastForm? .legacy .noLegacy said <|> booleanUnder "legacy-target" fields).getD false
  skipDeclaration := (lastForm? .skipDeclaration .noSkipDeclaration said <|>
    booleanUnder "skip-declaration" fields).getD false
  aggregate :=
    (lastForm? .aggregate .noAggregate said <|> booleanUnder "aggregate" fields).getD false
  outputDir := ((lastValue? .output said).map Path.mk <|>
    (textUnder "output-dir" fields).map fun text ↦ directory.join ⟨text⟩).getD ⟨"."⟩
  aggregateName :=
    (lastValue? .aggregateName said <|> textUnder "aggregate-name" fields).getD "Generated"
  toolName := "duet"

theorem layer_eq (occurrence : Occurrence) : layer occurrence =
    { outputDir := (valueOf? .output occurrence).map Path.mk
      searchPath := (valueOf? .searchPath occurrence).map Path.mk
      namePrefix := valueOf? .namePrefix occurrence
      legacyTarget := formOf? .legacy .noLegacy occurrence
      skipDeclaration := formOf? .skipDeclaration .noSkipDeclaration occurrence
      aggregate := formOf? .aggregate .noAggregate occurrence
      aggregateName := valueOf? .aggregateName occurrence } := by
  cases occurrence with
  | switch option => cases option <;> rfl
  | value option text => cases option <;> rfl
  | input | refused => rfl

theorem findSomeRev?_layers {α : Type} {field : Settings → Option α} {part : Occurrence → Option α}
    (h : ∀ occurrence, field (layer occurrence) = part occurrence) :
    (said.map layer).findSomeRev? field = said.findSomeRev? part := by
  rw [List.findSomeRev?_eq_findSome?_reverse, List.findSomeRev?_eq_findSome?_reverse,
    ← List.map_reverse, List.findSome?_map]
  exact congrArg (List.findSome? · said.reverse) (funext h)

theorem lastSaid_layers (said : List Occurrence) : Settings.lastSaid (said.map layer) =
    { outputDir := (lastValue? .output said).map Path.mk
      searchPath := (lastValue? .searchPath said).map Path.mk
      namePrefix := lastValue? .namePrefix said
      legacyTarget := lastForm? .legacy .noLegacy said
      skipDeclaration := lastForm? .skipDeclaration .noSkipDeclaration said
      aggregate := lastForm? .aggregate .noAggregate said
      aggregateName := lastValue? .aggregateName said } := by
  have hpath : ∀ option, (lastValue? option said).map Path.mk =
      said.findSomeRev? fun occurrence ↦ (valueOf? option occurrence).map Path.mk := by
    intro option
    simp only [lastValue?, List.findSomeRev?_eq_findSome?_reverse, List.map_findSome?]
    rfl
  simp only [Settings.lastSaid, hpath]
  congr 1
  · exact findSomeRev?_layers fun occurrence ↦ congrArg Settings.outputDir (layer_eq occurrence)
  · exact findSomeRev?_layers fun occurrence ↦ congrArg Settings.searchPath (layer_eq occurrence)
  · exact findSomeRev?_layers fun occurrence ↦ congrArg Settings.namePrefix (layer_eq occurrence)
  · exact findSomeRev?_layers fun occurrence ↦ congrArg Settings.legacyTarget (layer_eq occurrence)
  · exact findSomeRev?_layers fun occurrence ↦
      congrArg Settings.skipDeclaration (layer_eq occurrence)
  · exact findSomeRev?_layers fun occurrence ↦ congrArg Settings.aggregate (layer_eq occurrence)
  · exact findSomeRev?_layers fun occurrence ↦ congrArg Settings.aggregateName (layer_eq occurrence)

variable (said) in
/-- The settings file that a command line asks for, or the one that is read if it is there. -/
def settingsFile : Path :=
  ((lastValue? .config said).map Path.mk).getD Settings.defaultFile

variable (tree said configs) in
/-- The configurations that a command line stands for by what it says: one for each input. -/
structure Configured (fields : List (String × Toml.Keyed Toml.Value)) (paths : List Path) :
    Prop where
  file : Settings.FileHolds tree (settingsFile said) (lastValue? .config said).isSome fields
  inputs : Inputs.expand tree (said.filterMap input?) = .ok paths
  resolved : configs =
    paths.map (resolved said ((settingsFile said).parent?.getD ⟨""⟩) fields)

theorem exists_configured (hsums : Arguments.Sums arguments said)
    (h : arguments.configs tree = .ok configs) :
    ∃ fields paths, Configured said tree configs fields paths := by
  obtain ⟨loaded, hloaded, h⟩ := bind_eq_ok_iff.1 h
  obtain ⟨paths, hpaths, rfl⟩ := bind_ok_eq_ok_iff.1 h
  rw [mapError_eq_ok_iff, hsums.config, Option.isSome_map] at hloaded
  rw [mapError_eq_ok_iff, hsums.inputs] at hpaths
  obtain ⟨fields, hfields, rfl⟩ := Settings.load_eq_ok hloaded
  refine ⟨fields, paths, hfields, hpaths, List.map_congr_left fun input _ ↦ ?_⟩
  rw [hsums.settings, Settings.stack_eq_lastSaid, lastSaid_layers]
  simp only [Settings.configFor, Settings.merge, Settings.relativeTo, Settings.ofFields,
    CommandLine.resolved, Option.map_map]
  rfl

/-- Every configuration of a call is what the command line says, laid over what the settings file
says, field by field, and they differ in nothing but the input. Layers can be put together in any
way. -/
theorem configs_layered (hread : Command.read argv = .ok command)
    (hconfigs : command.arguments.configs tree = .ok configs) :
    (∃ before name specs rest said fields paths, argv = before ++ name :: rest ∧
      (name = "generate" ∧ specs = Command.generateOptions ∨
        name = "check" ∧ specs = Command.checkOptions) ∧
      (∀ argument ∈ before,
        Command.firstStop? (ofArgument Command.globalOptions argument).1 = none) ∧
      (∀ other, Says specs rest other ↔ other = said) ∧
      Configured said tree configs fields paths) ∧
    (∀ config ∈ configs, ∀ other ∈ configs, other = { config with input := other.input }) ∧
    (∀ a b c : Settings, (a.merge b).merge c = a.merge (b.merge c)) ∧
    (∀ settings : Settings, ({} : Settings).merge settings = settings ∧
      settings.merge {} = settings) ∧
    ∀ layers, Settings.stack layers = Settings.lastSaid layers := by
  obtain ⟨before, name, specs, rest, hargv, hname, hbefore, hread⟩ := Command.exists_of_read hread
  obtain ⟨said, hsays, hsums⟩ := Arguments.exists_says_of_read hread
  obtain ⟨fields, paths, hconfigured⟩ := exists_configured hsums hconfigs
  have hunique : ∀ other, Says specs rest other ↔ other = said := by
    intro other
    constructor
    · exact fun h ↦ h.ofArguments_eq.symm.trans hsays.ofArguments_eq
    · rintro rfl
      exact hsays
  refine ⟨⟨before, name, specs, rest, said, fields, paths, hargv, hname, hbefore, hunique,
    hconfigured⟩, ?_, Settings.merge_assoc,
    fun settings ↦ ⟨Settings.empty_merge settings, Settings.merge_empty settings⟩,
    Settings.stack_eq_lastSaid⟩
  intro config hconfig other hother
  rw [hconfigured.resolved] at hconfig hother
  obtain ⟨input, -, rfl⟩ := List.mem_map.1 hconfig
  obtain ⟨input', -, rfl⟩ := List.mem_map.1 hother
  rfl

def bench : FileTree where
  root := .directory [("a.toml", .file "".toUTF8), ("b.toml", .file "".toUTF8),
    ("cfg", .directory [("my.toml", .file
      "prefix = \"AB\"\noutput-dir = \"out\"\nlegacy-target = false\naggregate = true".toUTF8)])]
  workingDirectory := []

def benchLine : List String :=
  ["-v", "generate", "-6s", "a.toml", "-c", "cfg/my.toml", "--no-skip-declaration", "b.toml",
    "--prefix=CD"]

def benchConfig (input : Path) : RunConfig where
  input
  namePrefix := "CD"
  legacyTarget := true
  aggregate := true
  outputDir := ⟨"cfg/out"⟩

theorem configs_layered_bench : ∃ command,
    Command.read benchLine = .ok command ∧
    command.arguments.configs bench = .ok ([⟨"a.toml"⟩, ⟨"b.toml"⟩].map benchConfig) ∧
    ∃ said fields paths,
      Configured said bench ([⟨"a.toml"⟩, ⟨"b.toml"⟩].map benchConfig) fields paths := by
  let settings : Settings :=
    { legacyTarget := some true, skipDeclaration := some false, namePrefix := some "CD" }
  let command : Command := .generate
    { inputs := [⟨"a.toml"⟩, ⟨"b.toml"⟩], config := some ⟨"cfg/my.toml"⟩, settings }
  have hread : Command.read benchLine = .ok command := by decide +kernel
  have hconfigs : command.arguments.configs bench =
      .ok ([⟨"a.toml"⟩, ⟨"b.toml"⟩].map benchConfig) := by
    decide +kernel
  obtain ⟨_, _, _, _, said, fields, paths, -, -, -, -, hconfigured⟩ :=
    (configs_layered hread hconfigs).1
  exact ⟨command, hread, hconfigs, said, fields, paths, hconfigured⟩

end PairedSource.CommandLine
