import PairedSource.Assembly
import PairedSource.InputFile
import PairedSource.Output

namespace PairedSource

structure FrontEnd (μ : Type) where
  build : FileTree → RunConfig → SourceText → Except Fault (List (UnitModel μ))
  renderer : Renderer μ

structure RunReport where
  input : Path
  units : List String
  artifacts : List Path
  outcome : WriteOutcome
  deriving Repr, DecidableEq

namespace FrontEnd

variable {μ : Type} (frontEnd : FrontEnd μ) (engine : Engine) (config : RunConfig)

def generate (tree : FileTree) : Except Error Generation := do
  let source ← tree.readSource config.input
  let models ← (frontEnd.build tree config source).mapError (Fault.toError .build)
  let units ← (populate engine.language.naming frontEnd.renderer config models).mapError
    (Fault.toError .populate)
  engine.generate config units

def report (generation : Generation) (outcome : WriteOutcome) : RunReport where
  input := config.input
  units := generation.unitNames
  artifacts := generation.artifacts.map (·.pathIn config.outputDir)
  outcome := outcome

/-- Generates and writes. Nothing is written before everything is generated. -/
def run (tree : FileTree) : FileTree × Except Error RunReport :=
  match frontEnd.generate engine config tree with
  | .error e => (tree, .error e)
  | .ok generation =>
    let (tree, written) := generation.write config.outputDir tree
    (tree, written.map (report config generation))

end FrontEnd

end PairedSource
