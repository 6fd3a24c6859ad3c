import PairedSource.FileTree
import PairedSource.Settings

namespace PairedSource.Inputs

structure NoManifests where
  directory : Path
  deriving Repr, DecidableEq

def NoManifests.message (e : NoManifests) : String :=
  s!"no .toml manifests found in '{e.directory.text}'"

variable (tree : FileTree)

/-- Whether a path inside a directory leads to a manifest. Settings files are none. -/
def isManifest (p : Path) : Bool :=
  tree.isFile p && p.extension? == some "toml" && p.fileName? != Settings.defaultFile.fileName?

def manifestsIn (directory : Path) : List Path :=
  (((tree.entries directory).mergeSort (decide <| · ≤ ·)).map fun name ↦
    directory.join ⟨name⟩).filter (isManifest tree)

def expandOne (input : Path) : Except NoManifests (List Path) :=
  if tree.isDirectory input then
    match manifestsIn tree input with
    | [] => .error ⟨input⟩
    | found => .ok found
  else .ok [input]

/-- Drops every path with the same steps as an earlier one. -/
def dropRepeats (seen : List Path) : List Path → List Path
  | [] => []
  | p :: ps =>
    if seen.any (·.Same p) then dropRepeats seen ps else p :: dropRepeats (p :: seen) ps

def expand (inputs : List Path) : Except NoManifests (List Path) := do
  return dropRepeats [] (← inputs.mapM (expandOne tree)).flatten

end PairedSource.Inputs
