namespace PairedSource.CommandLine

inductive Purpose where
  | config
  | output
  | searchPath
  | namePrefix
  | legacy
  | noLegacy
  | skipDeclaration
  | noSkipDeclaration
  | aggregate
  | noAggregate
  | aggregateName
  | dryRun
  | json
  | verbose
  | help
  | version
  deriving Repr, DecidableEq

structure OptionSpec where
  purpose : Purpose
  long : String
  short : Option Char := none
  takesValue : Bool := false
  deriving Repr

inductive Refusal where
  | unknownOption (argument : String)
  | missingValue (option : Purpose)
  | unexpectedValue (option : Purpose)
  | repeated (option : Purpose)
  | emptyPath
  | missingInput
  | missingCommand
  | unknownCommand (name : String)
  deriving Repr, DecidableEq

/-- One thing that a command line says. Nothing is read behind what is refused. -/
inductive Occurrence where
  | switch (option : Purpose)
  | value (option : Purpose) (value : String)
  | input (text : String)
  | refused (refusal : Refusal)
  deriving Repr, DecidableEq

namespace Occurrence

variable (specs : List OptionSpec)

/-- What the letters behind one hyphen say, and the option that takes the next argument as its
value. An option that takes a value takes the rest of the letters if there are any. -/
def ofLetters : List Char → List Occurrence × Option Purpose
  | [] => ([], none)
  | c :: cs =>
    match specs.find? (·.short == some c) with
    | none => ([.refused (.unknownOption (String.ofList ['-', c]))], none)
    | some spec =>
      if spec.takesValue then
        match cs with
        | [] => ([], some spec.purpose)
        | '=' :: attached => ([.value spec.purpose (String.ofList attached)], none)
        | attached => ([.value spec.purpose (String.ofList attached)], none)
      else
        let (more, pending) := ofLetters cs
        (.switch spec.purpose :: more, pending)

def ofName (cs : List Char) : List Occurrence × Option Purpose :=
  let name := String.ofList (cs.takeWhile (· != '='))
  let attached := (cs.dropWhile (· != '=')).tail?.map String.ofList
  match specs.find? (·.long == name) with
  | none => ([.refused (.unknownOption ("--" ++ name))], none)
  | some spec =>
    match spec.takesValue, attached with
    | true, some s => ([.value spec.purpose s], none)
    | true, none => ([], some spec.purpose)
    | false, some _ => ([.refused (.unexpectedValue spec.purpose)], none)
    | false, none => ([.switch spec.purpose], none)

def ofArgument (argument : String) : List Occurrence × Option Purpose :=
  match argument.toList with
  | '-' :: '-' :: cs => ofName specs cs
  | '-' :: c :: cs => ofLetters specs (c :: cs)
  | _ => ([.input argument], none)

def isOption (argument : String) : Bool :=
  argument.toList.head? == some '-' && argument != "-"

/-- What some arguments say, in order; `pending` is the option whose value comes first. A value may
look like an option only if it is attached. Two hyphens alone end the options. -/
def ofArguments (pending : Option Purpose) : List String → List Occurrence
  | [] =>
    match pending with
    | some option => [.refused (.missingValue option)]
    | none => []
  | argument :: arguments =>
    match pending with
    | some option =>
      if isOption argument then [.refused (.missingValue option)]
      else .value option argument :: ofArguments none arguments
    | none =>
      if argument = "--" then arguments.map .input
      else
        let (said, pending) := ofArgument specs argument
        said ++ ofArguments pending arguments

end Occurrence

end PairedSource.CommandLine
