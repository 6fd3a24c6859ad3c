import PairedSource.Invocation
import PairedSource.Report.Item
import PairedSource.Report.Json

namespace PairedSource.Report

structure CheckFailure where
  kind : String
  message : String
  deriving Repr, DecidableEq

structure CheckEntry where
  input : Path
  units : List String := []
  artifacts : List String := []
  failure : Option CheckFailure := none
  deriving Repr, DecidableEq

structure CheckReport where
  entries : List CheckEntry
  deriving Repr, DecidableEq

def CheckEntry.ofPreview (preview : Invocation.Preview) : CheckEntry :=
  match preview.result with
  | .ok generation =>
    { input := preview.input
      units := generation.unitNames
      artifacts := generation.artifacts.map Artifact.fileName }
  | .error e =>
    { input := preview.input, failure := some { kind := e.kind, message := e.message } }

def CheckEntry.items (entry : CheckEntry) : List Item :=
  match entry.failure with
  | some failure => [.error s!"{entry.input.text}: {failure.message}"]
  | none => [
    .preformatted s!"✓ {entry.input.text} is valid",
    .indentedKeyValue (if entry.units.length = 1 then "Unit" else "Units")
      (", ".intercalate entry.units),
    .indentedKeyValue "Artifacts" (", ".intercalate entry.artifacts)]

def texts (l : List String) : Json :=
  .list (l.map .text)

def CheckFailure.json (failure : CheckFailure) : Json :=
  .object [("kind", .text failure.kind), ("message", .text failure.message)]

def CheckEntry.json (entry : CheckEntry) : Json :=
  .object ([("input", .text entry.input.text), ("units", texts entry.units),
    ("artifacts", texts entry.artifacts)] ++
    (entry.failure.map fun failure ↦ ("error", failure.json)).toList)

namespace CheckReport

variable (report : CheckReport)

def ofPreviews (previews : List Invocation.Preview) : CheckReport :=
  ⟨previews.map CheckEntry.ofPreview⟩

def isValid : Bool :=
  report.entries.all (·.failure.isNone)

def items : List Item :=
  report.entries.flatMap CheckEntry.items

def json : Json :=
  .object [("entries", .list (report.entries.map CheckEntry.json))]

end CheckReport

end PairedSource.Report

namespace PairedSource.Invocation

def check (tree : FileTree) (configs : List RunConfig) : Report.CheckReport :=
  .ofPreviews (preview tree configs)

end PairedSource.Invocation
