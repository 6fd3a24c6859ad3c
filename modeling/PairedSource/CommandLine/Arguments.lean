import PairedSource.CommandLine.Occurrence
import PairedSource.Inputs
import PairedSource.Settings

namespace PairedSource.CommandLine

structure Arguments where
  inputs : List Path := []
  config : Option Path := none
  settings : Settings := {}
  dryRun : Bool := false
  json : Bool := false
  deriving Repr, DecidableEq

inductive Stop where
  | help
  | version
  | refused (refusal : Refusal)
  deriving Repr, DecidableEq

inductive StartError where
  | settings (error : Error)
  | inputs (error : Inputs.NoManifests)
  deriving Repr, DecidableEq

def runOptions : List OptionSpec := [
  { purpose := .config, long := "config", short := 'c', takesValue := true },
  { purpose := .output, long := "output", short := 'o', takesValue := true },
  { purpose := .searchPath, long := "search-path", short := 'f', takesValue := true },
  { purpose := .namePrefix, long := "prefix", short := 'p', takesValue := true },
  { purpose := .legacy, long := "legacy", short := '6' },
  { purpose := .noLegacy, long := "no-legacy" },
  { purpose := .skipDeclaration, long := "skip-declaration", short := 's' },
  { purpose := .noSkipDeclaration, long := "no-skip-declaration" },
  { purpose := .aggregate, long := "aggregate", short := 'u' },
  { purpose := .noAggregate, long := "no-aggregate" },
  { purpose := .aggregateName, long := "aggregate-name", takesValue := true },
  { purpose := .help, long := "help", short := 'h' }]

namespace Arguments

def path (value : String) : Except Stop Path :=
  if value.isEmpty then .error (.refused .emptyPath) else .ok ⟨value⟩

def setOnce {α : Type} (option : Purpose) (present : Option α) (value : α) :
    Except Stop (Option α) :=
  if present.isSome then .error (.refused (.repeated option)) else .ok (some value)

/-- Sets a switch. It may be repeated only after its negation. -/
def setSwitch (option : Purpose) (present : Option Bool) (value : Bool) :
    Except Stop (Option Bool) :=
  if present = some value then .error (.refused (.repeated option)) else .ok (some value)

def setFlag (option : Purpose) (present : Bool) : Except Stop Bool :=
  if present then .error (.refused (.repeated option)) else .ok true

variable (arguments : Arguments)

def addSwitch (option : Purpose) : Except Stop Arguments := do
  let s := arguments.settings
  let switch := setSwitch option
  match option with
  | .legacy => return { arguments with
      settings := { s with legacyTarget := ← switch s.legacyTarget true } }
  | .noLegacy => return { arguments with
      settings := { s with legacyTarget := ← switch s.legacyTarget false } }
  | .skipDeclaration => return { arguments with
      settings := { s with skipDeclaration := ← switch s.skipDeclaration true } }
  | .noSkipDeclaration => return { arguments with
      settings := { s with skipDeclaration := ← switch s.skipDeclaration false } }
  | .aggregate => return { arguments with
      settings := { s with aggregate := ← switch s.aggregate true } }
  | .noAggregate => return { arguments with
      settings := { s with aggregate := ← switch s.aggregate false } }
  | .dryRun => return { arguments with dryRun := ← setFlag option arguments.dryRun }
  | .json => return { arguments with json := ← setFlag option arguments.json }
  | .help => throw .help
  | .version => throw .version
  | _ => return arguments

def addValue (option : Purpose) (value : String) : Except Stop Arguments := do
  let s := arguments.settings
  match option with
  | .config => return { arguments with
      config := ← setOnce option arguments.config (← path value) }
  | .output => return { arguments with
      settings := { s with outputDir := ← setOnce option s.outputDir (← path value) } }
  | .searchPath => return { arguments with
      settings := { s with searchPath := ← setOnce option s.searchPath (← path value) } }
  | .namePrefix => return { arguments with
      settings := { s with namePrefix := ← setOnce option s.namePrefix value } }
  | .aggregateName => return { arguments with
      settings := { s with aggregateName := ← setOnce option s.aggregateName value } }
  | _ => return arguments

def add (arguments : Arguments) : Occurrence → Except Stop Arguments
  | .switch option => arguments.addSwitch option
  | .value option value => arguments.addValue option value
  | .input text => do return { arguments with inputs := arguments.inputs ++ [← path text] }
  | .refused refusal => throw (.refused refusal)

def read (specs : List OptionSpec) (argv : List String) : Except Stop Arguments := do
  let arguments ← (Occurrence.ofArguments specs none argv).foldlM add {}
  if arguments.inputs.isEmpty then throw (.refused .missingInput)
  return arguments

/-- The configurations of the runs that are asked for, one for each input. What the command line
says goes over what the settings file says. -/
def configs (tree : FileTree) : Except StartError (List RunConfig) := do
  let file := arguments.config.getD Settings.defaultFile
  let loaded ← (Settings.load tree file arguments.config.isSome).mapError .settings
  let settings := loaded.merge arguments.settings
  let inputs ← (Inputs.expand tree arguments.inputs).mapError .inputs
  return inputs.map settings.configFor

end Arguments

end PairedSource.CommandLine
