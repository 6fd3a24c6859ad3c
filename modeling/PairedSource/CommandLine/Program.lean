import PairedSource.CommandLine.Command
import PairedSource.Report.Check
import PairedSource.Report.Generate

namespace PairedSource.CommandLine

/-- What a run of the program leaves behind: the files, what it prints, and its exit code. -/
structure Answer where
  tree : FileTree
  output : String := ""
  errors : List String := []
  exitCode : UInt8 := 0

def version : String := "duet 0.3.0\n"

def usage : String :=
  "Usage: duet [-v] generate [--dry-run] [OPTIONS] INPUT...\n" ++
  "       duet [-v] check [--json] [OPTIONS] INPUT...\n"

def Purpose.text : Purpose → String
  | .config => "--config"
  | .output => "--output"
  | .searchPath => "--search-path"
  | .namePrefix => "--prefix"
  | .legacy => "--legacy"
  | .noLegacy => "--no-legacy"
  | .skipDeclaration => "--skip-declaration"
  | .noSkipDeclaration => "--no-skip-declaration"
  | .aggregate => "--aggregate"
  | .noAggregate => "--no-aggregate"
  | .aggregateName => "--aggregate-name"
  | .dryRun => "--dry-run"
  | .json => "--json"
  | .verbose => "--verbose"
  | .help => "--help"
  | .version => "--version"

def Refusal.message : Refusal → String
  | .unknownOption argument => s!"unexpected argument '{argument}' found"
  | .missingValue option => s!"a value is required for '{option.text}'"
  | .unexpectedValue option => s!"'{option.text}' takes no value"
  | .repeated option => s!"the argument '{option.text}' cannot be used multiple times"
  | .emptyPath => "a path cannot be empty"
  | .missingInput => "at least one input is required"
  | .missingCommand => "a command is required"
  | .unknownCommand name => s!"unrecognized command '{name}'"

namespace Answer

def ofStop (tree : FileTree) : Stop → Answer
  | .help => { tree, output := usage }
  | .version => { tree, output := version }
  | .refused refusal => { tree, errors := ["error: " ++ refusal.message, usage], exitCode := 2 }

def hanging (s : String) : String :=
  "\n  ".intercalate (Text.split '\n' s)

def diagnostic (e : Error) : List String :=
  hanging (e.code ++ ": " ++ e.message) ::
    (e.help?.map fun help ↦ hanging ("  help: " ++ help)).toList

def ofStartError (tree : FileTree) : StartError → Answer
  | .settings e => { tree, errors := diagnostic e, exitCode := 1 }
  | .inputs e => { tree, errors := [hanging ("Error: " ++ e.message)], exitCode := 1 }

def ofItems (tree : FileTree) (diagnostics : List String) (items : List Report.Item)
    (success : Bool) : Answer :=
  let terminal := Report.Terminal.addAll { errors := diagnostics } items
  { tree
    output := terminal.output
    errors := terminal.errors
    exitCode := if success then 0 else 1 }

end Answer

def diagnostics {α : Type} (outcomes : List (RunOutcome α)) : List String :=
  outcomes.flatMap fun outcome ↦
    match outcome.result with
    | .ok _ => []
    | .error e => Answer.diagnostic e

def Command.arguments : Command → Arguments
  | .generate arguments => arguments
  | .check arguments => arguments

def Command.run (tree : FileTree) (configs : List RunConfig) : Command → Answer
  | .check arguments =>
    let report := Invocation.check tree configs
    if arguments.json then
      { tree, output := report.json.pretty 0 ++ "\n", exitCode := if report.isValid then 0 else 1 }
    else Answer.ofItems tree [] report.items report.isValid
  | .generate arguments =>
    if arguments.dryRun then
      let previews := Invocation.preview tree configs
      let report := Report.GenerateReport.ofPreviews configs previews
      Answer.ofItems tree (diagnostics previews) report.items report.isSuccess
    else
      let (after, outcomes) := Invocation.generate tree configs
      let report := Report.GenerateReport.ofRuns outcomes
      Answer.ofItems after (diagnostics outcomes) report.items report.isSuccess

def answer (tree : FileTree) (argv : List String) : Answer :=
  match Command.read argv with
  | .error stop => .ofStop tree stop
  | .ok command =>
    match command.arguments.configs tree with
    | .error e => .ofStartError tree e
    | .ok configs => command.run tree configs

end PairedSource.CommandLine
