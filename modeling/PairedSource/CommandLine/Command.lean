import PairedSource.CommandLine.Arguments

namespace PairedSource.CommandLine

inductive Command where
  | generate (arguments : Arguments)
  | check (arguments : Arguments)
  deriving Repr, DecidableEq

namespace Command

def verbose : OptionSpec :=
  { purpose := .verbose, long := "verbose", short := 'v' }

def globalOptions : List OptionSpec := [
  verbose,
  { purpose := .help, long := "help", short := 'h' },
  { purpose := .version, long := "version", short := 'V' }]

def generateOptions : List OptionSpec :=
  runOptions ++ [verbose, { purpose := .dryRun, long := "dry-run" }]

def checkOptions : List OptionSpec :=
  runOptions ++ [verbose, { purpose := .json, long := "json" }]

def names : List String := ["generate", "check", "help"]

def helpOn : List String → Stop
  | [] => .help
  | name :: rest =>
    if !names.contains name then .refused (.unknownCommand name)
    else match rest with
    | [] => .help
    | other :: _ => .refused (.unknownCommand other)

def firstStop? : List Occurrence → Option Stop
  | [] => none
  | .switch .help :: _ => some .help
  | .switch .version :: _ => some .version
  | .refused refusal :: _ => some (.refused refusal)
  | .input text :: _ => some (.refused (.unknownCommand text))
  | _ :: rest => firstStop? rest

def read : List String → Except Stop Command
  | [] => .error (.refused .missingCommand)
  | "generate" :: argv => (Arguments.read generateOptions argv).map .generate
  | "check" :: argv => (Arguments.read checkOptions argv).map .check
  | "help" :: argv => .error (helpOn argv)
  | "--" :: _ => .error (.refused .missingCommand)
  | argument :: argv =>
    match firstStop? (Occurrence.ofArgument globalOptions argument).1 with
    | some stop => .error stop
    | none => read argv

end Command

end PairedSource.CommandLine
