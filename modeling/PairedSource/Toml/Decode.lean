import PairedSource.Binary64.Decimal
import PairedSource.SourceText
import PairedSource.Text.Quoted
import PairedSource.Toml.Document

namespace PairedSource.Toml

def dateTimeKey : String := "$__toml_private_datetime"

namespace Value

/-- What an integer is called; one that no 64 bits hold is marked as a wide one. -/
def foundInteger (n : Int) : String :=
  let mark :=
    if fitsSigned 64 n || fitsUnsigned 64 n then ""
    else if fitsSigned 128 n then " as i128"
    else " as u128"
  s!"integer `{n}`" ++ mark

def refusal (expected : String) : Value → TypeError
  | .outOfRange kind => .outOfRange kind
  | .text s => .invalidType ("string " ++ Text.quoted s) expected
  | .integer n => .invalidType (foundInteger n) expected
  | .float x => .invalidType s!"floating point `{Binary64.Decimal.text x}`" expected
  | .boolean b => .invalidType s!"boolean `{b}`" expected
  | .array _ | .tables _ => .invalidType "sequence" expected
  | .dateTime _ | .table _ => .invalidType "map" expected

def items? : Value → Option (List (Located Value))
  | .array items => some items
  | .tables elements => some (elements.map fun element ↦ ⟨.table element.value, element.span⟩)
  | _ => none

end Value

def dateTimeFields (dateTime : DateTime) (span : Span) : List (String × Keyed Value) :=
  [(dateTimeKey, { value := .text dateTime.text, span, keySpan := span })]

abbrev Typed (α : Type) := Except (Located TypeError) α

namespace Typed

variable {α : Type}

def mismatch (expected : String) (given : Located Value) : Typed α :=
  .error ⟨given.value.refusal expected, given.span⟩

def text (expected : String) (given : Located Value) : Typed String :=
  match given.value with
  | .text s => .ok s
  | _ => mismatch expected given

def string (given : Located Value) : Typed String :=
  text "a string" given

def path (given : Located Value) : Typed Path :=
  (text "path string" given).map Path.mk

def boolean (given : Located Value) : Typed Bool :=
  match given.value with
  | .boolean b => .ok b
  | _ => mismatch "a boolean" given

def list (item : Located Value → Typed α) (given : Located Value) : Typed (List α) :=
  match given.value.items? with
  | some items => items.mapM item
  | none => mismatch "a sequence" given

def strings (given : Located Value) : Typed (List String) :=
  list string given

def fields (expected : String) (given : Located Value) : Typed (List (String × Keyed Value)) :=
  match given.value with
  | .table table => .ok table.fields
  | .dateTime dateTime => .ok (dateTimeFields dateTime given.span)
  | _ => mismatch expected given

def map (item : Located Value → Typed α) (given : Located Value) : Typed (List (String × α)) := do
  (← fields "a map" given).mapM fun (key, field) ↦ do return (key, ← item field.toLocated)

def unknown (known : List String) (key : String) (field : Keyed Value) : Typed α :=
  .error ⟨.unknownField key known, field.keySpan⟩

end Typed

/-- A fault of type in the given document. A number out of range anywhere in it counts for more. -/
def Document.inputFault (document : Document) (error : TypeError) : InputFault :=
  if document.inRange then .mistyped error else .outOfRange error

def decode {α : Type} (source : SourceText) (reader : Table → Typed α) : Except Error α :=
  match Document.read source.text with
  | .error e => .error (.invalidInput source.path (.malformed e) none)
  | .ok document =>
    match reader document.root with
    | .error e => .error (.invalidInput source.path (document.inputFault e.value) (some e.span))
    | .ok a => .ok a

end PairedSource.Toml
