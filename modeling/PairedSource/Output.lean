import PairedSource.Error
import PairedSource.FileTree.Write

namespace PairedSource

structure WriteOutcome where
  written : List Path := []
  unchanged : List Path := []
  deriving Repr, DecidableEq

namespace WriteOutcome

def size (outcome : WriteOutcome) : Nat :=
  outcome.written.length + outcome.unchanged.length

def isEmpty (outcome : WriteOutcome) : Bool :=
  outcome.written.isEmpty && outcome.unchanged.isEmpty

def add (outcome : WriteOutcome) (path : Path) : WriteResult → WriteOutcome
  | .written => { outcome with written := outcome.written ++ [path] }
  | .unchanged => { outcome with unchanged := outcome.unchanged ++ [path] }

end WriteOutcome

def Artifact.pathIn (directory : Path) (artifact : Artifact) : Path :=
  directory.join ⟨artifact.fileName⟩

/-- Writes artifacts one after the other where they are not there already, up to the first that
cannot be written; `outcome` is what came before. -/
def writeArtifacts (directory : Path) (tree : FileTree) (outcome : WriteOutcome) :
    List Artifact → FileTree × Except Error WriteOutcome
  | [] => (tree, .ok outcome)
  | artifact :: artifacts =>
    let path := artifact.pathIn directory
    match tree.write path artifact.content .ifChanged with
    | (tree, some result) => writeArtifacts directory tree (outcome.add path result) artifacts
    | (tree, none) => (tree, .error (.writeFailure path artifact.kind outcome.written))

def Generation.write (generation : Generation) (directory : Path) (tree : FileTree) :
    FileTree × Except Error WriteOutcome :=
  writeArtifacts directory tree {} generation.artifacts

end PairedSource
