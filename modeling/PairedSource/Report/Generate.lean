import PairedSource.Invocation
import PairedSource.Report.Item

namespace PairedSource.Report

structure RunSummary where
  input : Path
  units : List String
  written : List Path
  unchanged : List Path
  deriving Repr, DecidableEq

structure PreviewFile where
  path : Path
  content : String
  deriving Repr, DecidableEq

inductive Generated where
  | written (runs : List RunSummary)
  | preview (files : List PreviewFile)
  deriving Repr, DecidableEq

structure GenerateReport where
  generated : Generated
  failed : List Path
  deriving Repr, DecidableEq

def RunSummary.ofReport (report : RunReport) : RunSummary where
  input := report.input
  units := report.units
  written := report.outcome.written
  unchanged := report.outcome.unchanged

def previewFiles (directory : Path) (generation : Generation) : List PreviewFile :=
  generation.artifacts.map fun artifact ↦
    { path := artifact.pathIn directory, content := artifact.content }

def failures {α : Type} (outcomes : List (RunOutcome α)) : List Path :=
  outcomes.filterMap fun outcome ↦
    match outcome.result with
    | .ok _ => none
    | .error _ => some outcome.input

def RunSummary.items (run : RunSummary) : List Item :=
  [.heading run.input.text, .indentedKeyValue "Units" (", ".intercalate run.units)] ++
    run.written.map (.addedItem ·.text) ++
    (if run.unchanged.isEmpty then []
      else [.indentedKeyValue "Unchanged" s!"{run.unchanged.length} files"]) ++
    [.newline]

def writtenItems (runs : List RunSummary) : List Item :=
  let written := (runs.flatMap (·.written)).length
  let unchanged := (runs.flatMap (·.unchanged)).length
  runs.flatMap RunSummary.items ++
    [.keyValue "Generated" s!"{written} written, {unchanged} unchanged"]

def previewItems (files : List PreviewFile) : List Item :=
  files.flatMap (fun file ↦ [.divider file.path.text, .preformatted file.content]) ++
    [.divider "Summary", .preformatted s!"{files.length} files would be generated"]

def Generated.items : Generated → List Item
  | .written runs => writtenItems runs
  | .preview files => previewItems files

namespace GenerateReport

variable (report : GenerateReport)

def isSuccess : Bool :=
  report.failed.isEmpty

def items : List Item :=
  report.generated.items ++
    report.failed.map fun input ↦ .error s!"generation failed for '{input.text}'"

def ofRuns (outcomes : List (RunOutcome RunReport)) : GenerateReport where
  generated := .written (outcomes.filterMap fun outcome ↦
    match outcome.result with
    | .ok report => some (.ofReport report)
    | .error _ => none)
  failed := failures outcomes

def ofPreviews (configs : List RunConfig) (previews : List Invocation.Preview) :
    GenerateReport where
  generated := .preview ((configs.zip previews).flatMap fun (config, outcome) ↦
    match outcome.result with
    | .ok generation => previewFiles config.outputDir generation
    | .error _ => [])
  failed := failures previews

end GenerateReport

end PairedSource.Report
