import PairedSource.Error
import PairedSource.RunConfig
import PairedSource.SourceUnit

namespace PairedSource

structure Member (μ : Type) where
  key : String
  value : μ
  deriving Repr, DecidableEq

structure UnitModel (μ : Type) where
  key : String
  imports : List String := []
  members : List (Member μ) := []
  deriving Repr, DecidableEq

structure NamedMember (μ : Type) extends Member μ where
  name : String
  deriving Repr, DecidableEq

structure UnitContext (μ : Type) where
  key : String
  name : String
  config : RunConfig
  members : List (NamedMember μ)

/-- How a stage ends early: with an error, or broken off with or without a message. -/
inductive Fault where
  | error (error : Error)
  | interruption (message : Option String)
  deriving Repr, DecidableEq

def Fault.toError (stage : Stage) : Fault → Error
  | .error e => e
  | .interruption message => .interrupted stage (message.getD "unknown panic")

/-- Fills a unit in three steps: before, for and after its members. -/
structure Renderer (μ : Type) where
  start : UnitContext μ → SourceUnit → Except Fault SourceUnit
  member : UnitContext μ → Nat → NamedMember μ → SourceUnit → Except Fault SourceUnit
  finish : UnitContext μ → SourceUnit → Except Fault SourceUnit

end PairedSource
