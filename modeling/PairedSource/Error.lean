import PairedSource.Artifact
import PairedSource.Color
import PairedSource.Naming
import PairedSource.Path
import PairedSource.Span
import PairedSource.Toml.Error

namespace PairedSource

/-- What is wrong with the text of an input. Where it is `outOfRange` some number in it is, whatever
reading it stopped at. -/
inductive InputFault where
  | malformed (error : Toml.SyntaxError)
  | mistyped (error : Toml.TypeError)
  | outOfRange (error : Toml.TypeError)
  | invalidColor (value unit : String)
  | missingInclude (target : String) (searchPath : Option Path)
  | includeCycle (resolved : Path)
  | other (message : String)
  deriving Repr, DecidableEq

def InputFault.message (path : Path) : InputFault → String
  | .malformed error => s!"failed to parse '{path.text}': {error.message}"
  | .mistyped error | .outOfRange error => s!"failed to parse '{path.text}': {error.message}"
  | .invalidColor value unit => s!"{Color.refusal value} in unit '{unit}'"
  | .missingInclude target none => s!"cannot find include '{target}' next to '{path.text}'"
  | .missingInclude target (some searchPath) =>
    s!"cannot find include '{target}' next to '{path.text}' or in '{searchPath.text}'"
  | .includeCycle resolved => s!"include cycle: '{resolved.text}' is already being loaded"
  | .other message => message

inductive Stage where
  | read
  | build
  | populate
  | generate
  | write
  deriving Repr, DecidableEq

def Stage.text : Stage → String
  | .read => "read"
  | .build => "build"
  | .populate => "populate"
  | .generate => "generate"
  | .write => "write"

inductive Error where
  | inputUnreadable (path : Path)
  | invalidInput (path : Path) (fault : InputFault) (span : Option Span)
  | invalidKey (unit key : String) (reason : Rejection)
  | invalidPrefix (namePrefix : String) (reason : Rejection)
  | duplicateUnitName (name first second : String)
  | duplicateMemberName (unit name first second : String)
  | duplicateSymbol (symbol first second : String)
  | sharedOutput (path first second : Path)
  | missingSubstitution (unit kind : String)
  | writeFailure (path : Path) (artifact : ArtifactKind) (written : List Path)
  | interrupted (stage : Stage) (message : String)
  deriving Repr, DecidableEq

namespace Error

def kind : Error → String
  | .inputUnreadable .. => "input-unreadable"
  | .invalidInput .. => "invalid-input"
  | .invalidKey .. => "invalid-key"
  | .invalidPrefix .. => "invalid-prefix"
  | .duplicateUnitName .. => "duplicate-unit-name"
  | .duplicateMemberName .. => "duplicate-member-name"
  | .duplicateSymbol .. => "duplicate-symbol"
  | .sharedOutput .. => "shared-output"
  | .missingSubstitution .. => "missing-substitution"
  | .writeFailure .. => "write-failure"
  | .interrupted .. => "panicked"

def code : Error → String
  | .inputUnreadable .. => "duet::input_unreadable"
  | .invalidInput .. => "duet::invalid_input"
  | .invalidKey .. => "duet::invalid_key"
  | .invalidPrefix .. => "duet::invalid_prefix"
  | .duplicateUnitName .. => "duet::duplicate_unit"
  | .duplicateMemberName .. => "duet::duplicate_member"
  | .duplicateSymbol .. => "duet::duplicate_symbol"
  | .sharedOutput .. => "duet::shared_output"
  | .missingSubstitution .. => "duet::missing_substitution"
  | .writeFailure .. => "duet::write_failure"
  | .interrupted .. => "duet::panicked"

def message : Error → String
  | .inputUnreadable path => s!"failed to read input '{path.text}'"
  | .invalidInput path fault _ => fault.message path
  | .invalidKey unit key reason => s!"invalid key '{key}' in unit '{unit}': {reason.message}"
  | .invalidPrefix namePrefix reason =>
    s!"invalid identifier prefix '{namePrefix}': {reason.message}"
  | .duplicateUnitName name first second =>
    s!"units '{first}' and '{second}' both resolve to '{name}'"
  | .duplicateMemberName unit name first second =>
    s!"members '{first}' and '{second}' of unit '{unit}' both resolve to '{name}'"
  | .duplicateSymbol symbol first second =>
    s!"units '{first}' and '{second}' both define the global symbol '{symbol}'"
  | .sharedOutput path first second =>
    s!"inputs '{first.text}' and '{second.text}' both write '{path.text}'"
  | .missingSubstitution unit kind =>
    s!"no substitution rule for construct '{kind}' in unit '{unit}'"
  | .writeFailure path artifact _ => s!"failed to write {artifact.text} artifact '{path.text}'"
  | .interrupted stage message => s!"{stage.text} stage panicked: {message}"

def help? : Error → Option String
  | .inputUnreadable _ => "check that the input file exists and is readable"
  | .invalidKey .. =>
    "keys need at least one letter or digit and must not be a reserved word"
  | .invalidPrefix .. =>
    "a prefix must start with a letter or underscore and contain only letters, digits and " ++
      "underscores"
  | .duplicateUnitName .. =>
    "rename one of the units; names are compared after prefixing and case conversion"
  | .duplicateSymbol .. =>
    "generated constants are named after their unit and member; rename a unit or member"
  | .sharedOutput .. =>
    "give each input its own output directory, or rename the clashing units or aggregate name"
  | .missingSubstitution _ kind => s!"register a rule for '{kind}' in the substitution table"
  | .writeFailure .. => "output may be partially written; re-run to repair"
  | .invalidInput .. | .duplicateMemberName .. | .interrupted .. => none

end Error

end PairedSource
