import PairedSource.Path
import PairedSource.RuleTable

namespace PairedSource

structure RunConfig where
  input : Path
  namePrefix : String := ""
  searchPath : Option Path := none
  legacyTarget : Bool := false
  skipDeclaration : Bool := false
  aggregate : Bool := false
  outputDir : Path := ⟨"."⟩
  aggregateName : String := "Generated"
  toolName : String := "duet"
  deriving Repr, DecidableEq

namespace RunConfig

variable (config : RunConfig)

def targetMode : TargetMode :=
  if config.legacyTarget then .legacy else .modern

/-- The name of the input file, or the whole path where it ends in no name. -/
def inputFileName : String :=
  config.input.fileName?.getD config.input.text

end RunConfig

end PairedSource
