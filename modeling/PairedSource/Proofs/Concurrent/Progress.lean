import PairedSource.ObjectiveC
import PairedSource.Proofs.Concurrent.Request
import PairedSource.Proofs.Include.Reading

namespace PairedSource

structure Frame where
  source : SourceText
  identity : Identity
  targets : List String

/-- What was loaded so far, and the manifests that are in the middle of being loaded, the innermost
first. -/
structure Loading where
  models : List (UnitModel Entry) := []
  loaded : List Identity := []
  frames : List Frame := []

structure Writing where
  generation : Generation
  outcome : WriteOutcome
  artifact : Artifact
  others : List Artifact

/-- How far a run has come: what it is about to ask, or how it has ended. -/
inductive Progress where
  | opening
  | entering (loading : Loading) (source : SourceText) (targets : List String)
  | looking (loading : Loading) (frame : Frame) (target : String) (path : Path)
      (others : List Path)
  | identifying (loading : Loading) (frame : Frame) (target : String) (path : Path)
  | including (loading : Loading) (frame : Frame) (path : Path)
  | comparing (writing : Writing)
  | preparing (writing : Writing)
  | placing (writing : Writing)
  | finished (result : Except Error RunReport)

/-- Either the end of a run, or a request and how the run goes on with the answer. -/
inductive Action where
  | stop (result : Except Error RunReport)
  | ask (request : Request) (next : request.Answer → Progress)

namespace Progress

variable (config : RunConfig)

def generateFrom (models : List (UnitModel Entry)) : Except Error Generation := do
  let units ← (populate ObjectiveC.engine.language.naming ObjectiveC.frontEnd.renderer config
    models).mapError (Fault.toError .populate)
  ObjectiveC.engine.generate config units

def write (generation : Generation) (outcome : WriteOutcome) : List Artifact → Progress
  | [] => finished (.ok (FrontEnd.report config generation outcome))
  | artifact :: others => comparing ⟨generation, outcome, artifact, others⟩

def emit : Except Error Generation → Progress
  | .ok generation => write config generation {} generation.artifacts
  | .error e => finished (.error e)

def look (loading : Loading) (frame : Frame) (target : String) : List Path → Progress
  | [] => finished
    (.error (frame.source.errorAt (.missingInclude target config.searchPath) target))
  | path :: others => looking loading frame target path others

def follow (models : List (UnitModel Entry)) (loaded : List Identity) : List Frame → Progress
  | [] => emit config (generateFrom config models)
  | ⟨_, _, []⟩ :: frames => follow models loaded frames
  | ⟨source, identity, target :: targets⟩ :: frames =>
    look config ⟨models, loaded, frames⟩ ⟨source, identity, targets⟩ target
      (Manifest.candidates config.searchPath source target)

def enter (loading : Loading) (path : Path) (content : ByteArray) : Progress :=
  match Manifest.readFile path content with
  | .ok (source, manifest, models) =>
    entering { loading with models := loading.models ++ models } source manifest.includes
  | .error e => finished (.error e)

/-- A manifest is not loaded within itself, and not twice. -/
def identify (loading : Loading) (frame : Frame) (target : String) (path : Path)
    (identity : Identity) : Progress :=
  if identity ∈ (frame :: loading.frames).map Frame.identity then
    finished (.error (frame.source.errorAt (.includeCycle path) target))
  else if identity ∈ loading.loaded then
    follow config loading.models loading.loaded (frame :: loading.frames)
  else including loading frame path

def pathOf (writing : Writing) : Path :=
  writing.artifact.pathIn config.outputDir

def proceed (writing : Writing) (result : WriteResult) : Progress :=
  write config writing.generation (writing.outcome.add (pathOf config writing) result)
    writing.others

def fail (writing : Writing) : Progress :=
  finished (.error (.writeFailure (pathOf config writing) writing.artifact.kind
    writing.outcome.written))

def action : Progress → Action
  | opening => .ask (.read config.input) fun
    | some content => enter {} config.input content
    | none => finished (.error (.inputUnreadable config.input))
  | entering loading source targets => .ask (.canonical source.path) fun answer ↦
    let identity := Identity.ofAnswer source.path answer
    follow config loading.models (identity :: loading.loaded)
      (⟨source, identity, targets⟩ :: loading.frames)
  | looking loading frame target path others => .ask (.isFile path) fun
    | true => identifying loading frame target path
    | false => look config loading frame target others
  | identifying loading frame target path => .ask (.canonical path) fun answer ↦
    identify config loading frame target path (Identity.ofAnswer path answer)
  | including loading frame path => .ask (.read path) fun
    | some content => enter { loading with frames := frame :: loading.frames } path content
    | none => finished (.error (.inputUnreadable path))
  | comparing writing => .ask (.read (pathOf config writing)) fun answer ↦
    if answer.map ByteArray.data = some writing.artifact.content.toUTF8.data then
      proceed config writing .unchanged
    else preparing writing
  | preparing writing => .ask (.makeDirectories (pathOf config writing)) fun
    | true => placing writing
    | false => fail config writing
  | placing writing =>
    .ask (.place (pathOf config writing) writing.artifact.content.toUTF8) fun
      | true => proceed config writing .written
      | false => fail config writing
  | finished result => .stop result

end Progress

end PairedSource
