import PairedSource.InputFile
import PairedSource.RunConfig
import PairedSource.Toml.Decode

namespace PairedSource

/-- What one layer of configuration says about a run. What it leaves open comes from the layer
below. -/
structure Settings where
  outputDir : Option Path := none
  searchPath : Option Path := none
  namePrefix : Option String := none
  legacyTarget : Option Bool := none
  skipDeclaration : Option Bool := none
  aggregate : Option Bool := none
  aggregateName : Option String := none
  deriving Repr, DecidableEq

namespace Settings

open Toml (Keyed Table Typed Value)

def defaultFile : Path := ⟨"duet.toml"⟩

def merge (lower upper : Settings) : Settings where
  outputDir := upper.outputDir <|> lower.outputDir
  searchPath := upper.searchPath <|> lower.searchPath
  namePrefix := upper.namePrefix <|> lower.namePrefix
  legacyTarget := upper.legacyTarget <|> lower.legacyTarget
  skipDeclaration := upper.skipDeclaration <|> lower.skipDeclaration
  aggregate := upper.aggregate <|> lower.aggregate
  aggregateName := upper.aggregateName <|> lower.aggregateName

def configFor (settings : Settings) (input : Path) : RunConfig :=
  let plain : RunConfig := { input }
  { plain with
    namePrefix := settings.namePrefix.getD plain.namePrefix
    searchPath := settings.searchPath
    legacyTarget := settings.legacyTarget.getD plain.legacyTarget
    skipDeclaration := settings.skipDeclaration.getD plain.skipDeclaration
    aggregate := settings.aggregate.getD plain.aggregate
    outputDir := settings.outputDir.getD plain.outputDir
    aggregateName := settings.aggregateName.getD plain.aggregateName }

def relativeTo (settings : Settings) (directory : Path) : Settings :=
  { settings with
    outputDir := settings.outputDir.map directory.join
    searchPath := settings.searchPath.map directory.join }

def keys : List String :=
  ["output-dir", "search-path", "prefix", "legacy-target", "skip-declaration", "aggregate",
    "aggregate-name"]

def readField (settings : Settings) (entry : String × Keyed Value) : Typed Settings := do
  let (key, field) := entry
  let given := field.toLocated
  match key with
  | "output-dir" => return { settings with outputDir := ← Typed.path given }
  | "search-path" => return { settings with searchPath := ← Typed.path given }
  | "prefix" => return { settings with namePrefix := ← Typed.string given }
  | "legacy-target" => return { settings with legacyTarget := ← Typed.boolean given }
  | "skip-declaration" => return { settings with skipDeclaration := ← Typed.boolean given }
  | "aggregate" => return { settings with aggregate := ← Typed.boolean given }
  | "aggregate-name" => return { settings with aggregateName := ← Typed.string given }
  | _ => Typed.unknown keys key field

def ofTable (table : Table) : Typed Settings :=
  table.fields.foldlM readField {}

def load (tree : FileTree) (path : Path) (explicit : Bool) : Except Error Settings :=
  if !explicit && !tree.pathExists path then .ok {}
  else do
    let source ← tree.readSource path
    let settings ← Toml.decode source ofTable
    return settings.relativeTo (path.parent?.getD ⟨""⟩)

end Settings

end PairedSource
