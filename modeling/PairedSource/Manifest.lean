import PairedSource.Entry
import PairedSource.Model
import PairedSource.Toml.Decode

namespace PairedSource

structure UnitSpec where
  imports : List String := []
  identifiers : List (String × String) := []
  colors : List (String × String) := []
  deriving Repr, DecidableEq

structure Manifest where
  includes : List String := []
  units : List (String × UnitSpec) := []
  deriving Repr, DecidableEq

open Toml (Keyed Located Table Typed Value)

namespace UnitSpec

def readField (spec : UnitSpec) : String × Keyed Value → Typed UnitSpec
  | ("imports", field) => do return { spec with imports := ← Typed.strings field.toLocated }
  | ("identifiers", field) => do
    return { spec with identifiers := ← Typed.map Typed.string field.toLocated }
  | ("colors", field) => do return { spec with colors := ← Typed.map Typed.string field.toLocated }
  | (key, field) => Typed.unknown ["imports", "identifiers", "colors"] key field

/-- A unit given as a list: imports, identifiers and colours by position. What is missing is empty,
what follows is not looked at. -/
def readItems (items : List (Located Value)) : Typed UnitSpec := do
  let imports ← (items[0]?.map Typed.strings).getD (.ok [])
  let identifiers ← (items[1]?.map (Typed.map Typed.string)).getD (.ok [])
  let colors ← (items[2]?.map (Typed.map Typed.string)).getD (.ok [])
  return { imports, identifiers, colors }

def read (given : Located Value) : Typed UnitSpec :=
  match given.value.items? with
  | some items => readItems items
  | none => do (← Typed.fields "struct UnitSpec" given).foldlM readField {}

end UnitSpec

namespace Manifest

def readField (manifest : Manifest) : String × Keyed Value → Typed Manifest
  | ("include", field) => do return { manifest with includes := ← Typed.strings field.toLocated }
  | ("units", field) => do
    return { manifest with units := ← Typed.map UnitSpec.read field.toLocated }
  | (key, field) => Typed.unknown ["include", "units"] key field

def ofTable (table : Table) : Typed Manifest :=
  table.fields.foldlM readField {}

def parse (source : SourceText) : Except Error Manifest :=
  Toml.decode source ofTable

variable (source : SourceText)

def colorMember (unit : String) : String × String → Except Error (Member Entry)
  | (key, value) =>
    match Color.read? value with
    | some color => .ok { key, value := .color color }
    | none => .error (source.errorAt (.invalidColor value unit) value)

def toModel : String × UnitSpec → Except Error (UnitModel Entry)
  | (key, spec) => do
    let identifiers := spec.identifiers.map fun (key, value) ↦
      ({ key, value := .identifier value } : Member Entry)
    let colors ← spec.colors.mapM (colorMember source key)
    return { key, imports := spec.imports, members := identifiers ++ colors }

def toModels (manifest : Manifest) : Except Error (List (UnitModel Entry)) :=
  manifest.units.mapM (toModel source)

end Manifest

end PairedSource
