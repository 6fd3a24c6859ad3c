import PairedSource.OrderedSet
import PairedSource.RuleTable

namespace PairedSource

inductive Fragment where
  | text (text : String)
  | construct (construct : Construct)
  deriving Repr, DecidableEq

structure SourceUnit where
  key : String
  imports : OrderedSet String := ∅
  declarations : List Fragment := []
  definitions : List Fragment := []
  symbols : OrderedSet String := ∅

namespace SourceUnit

variable (u : SourceUnit)

def addImport (directive : String) : SourceUnit :=
  { u with imports := u.imports.insert directive }

def addDeclaration (fragment : Fragment) : SourceUnit :=
  { u with declarations := u.declarations ++ [fragment] }

def addDefinition (fragment : Fragment) : SourceUnit :=
  { u with definitions := u.definitions ++ [fragment] }

def addSymbol (symbol : String) : SourceUnit :=
  { u with symbols := u.symbols.insert symbol }

def Same (v : SourceUnit) : Prop :=
  u.key = v.key ∧ u.imports.Same v.imports ∧ u.declarations = v.declarations ∧
    u.definitions = v.definitions ∧ u.symbols.Same v.symbols

end SourceUnit

end PairedSource
