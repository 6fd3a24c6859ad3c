import PairedSource.ObjectiveC

namespace PairedSource

structure RunOutcome (α : Type) where
  input : Path
  result : Except Error α

namespace Invocation

structure Claim where
  owner : Nat
  path : Path
  deriving Repr, DecidableEq

structure Clash where
  first : Nat
  second : Nat
  path : Path
  deriving Repr, DecidableEq

abbrev Preview := RunOutcome Generation

def Preview.paths (directory : Path) (preview : Preview) : List Path :=
  match preview.result with
  | .ok generation => generation.artifacts.map (·.pathIn directory)
  | .error _ => []

def claims (runs : List (Path × Preview)) : List Claim :=
  runs.zipIdx.flatMap fun ((directory, preview), owner) ↦
    (preview.paths directory).map fun path ↦ { owner, path }

/-- What going over the paths has found: the first claim of each path, and the clashes with it. -/
structure Scan where
  owners : List Claim := []
  clashes : List Clash := []

def Scan.add (scan : Scan) (claim : Claim) : Scan :=
  match scan.owners.find? (·.path.Same claim.path) with
  | some first =>
    if first.owner = claim.owner then scan
    else { scan with clashes := scan.clashes ++ [⟨first.owner, claim.owner, claim.path⟩] }
  | none => { scan with owners := scan.owners ++ [claim] }

def inputAt (previews : List Preview) (index : Nat) : Path :=
  (previews[index]?.map (·.input)).getD ⟨""⟩

def Preview.refuse (e : Error) (preview : Preview) : Preview :=
  match preview.result with
  | .ok _ => { preview with result := .error e }
  | .error _ => preview

def applyClash (previews : List Preview) (clash : Clash) : List Preview :=
  let e := Error.sharedOutput clash.path (inputAt previews clash.first)
    (inputAt previews clash.second)
  (previews.modify clash.first (·.refuse e)).modify clash.second (·.refuse e)

/-- Refuses every input that would write a path that another one would write. -/
def rejectShared (runs : List (Path × Preview)) : List Preview :=
  ((claims runs).foldl Scan.add {}).clashes.foldl applyClash (runs.map Prod.snd)

def preview (tree : FileTree) (configs : List RunConfig) : List Preview :=
  rejectShared (configs.map fun config ↦
    (config.outputDir,
      { input := config.input
        result := ObjectiveC.frontEnd.generate ObjectiveC.engine config tree }))

def runOne (tree : FileTree) (config : RunConfig) (checked : Preview) :
    FileTree × RunOutcome RunReport :=
  match checked.result with
  | .error e => (tree, { input := checked.input, result := .error e })
  | .ok _ =>
    let (tree, result) := ObjectiveC.frontEnd.run ObjectiveC.engine config tree
    (tree, { input := config.input, result })

def runAll (tree : FileTree) :
    List (RunConfig × Preview) → FileTree × List (RunOutcome RunReport)
  | [] => (tree, [])
  | (config, checked) :: rest =>
    let (tree, outcome) := runOne tree config checked
    let (tree, outcomes) := runAll tree rest
    (tree, outcome :: outcomes)

/-- Runs every configuration whose preview succeeds. An input that shares an output with another one
is not run at all. -/
def generate (tree : FileTree) (configs : List RunConfig) :
    FileTree × List (RunOutcome RunReport) :=
  runAll tree (configs.zip (preview tree configs))

end Invocation

end PairedSource
