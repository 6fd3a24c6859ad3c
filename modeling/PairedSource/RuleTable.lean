import PairedSource.Association
import PairedSource.Text.Quoted

namespace PairedSource

inductive TargetMode where
  | modern
  | legacy
  deriving Repr, DecidableEq

def TargetMode.text : TargetMode → String
  | .modern => "modern"
  | .legacy => "legacy"

/-- A piece of code whose text hangs on the target: its kind and what its rule fills in. -/
structure Construct where
  kind : String
  args : List String := []
  deriving Repr, DecidableEq

def Construct.argAt (construct : Construct) (index : Nat) : String :=
  construct.args[index]?.getD ""

abbrev Rule := Construct → String

/-- The rules of each kind of construct, at most one for each mode, in the order they came. -/
structure RuleTable where
  rules : List (String × List (TargetMode × Rule)) := []

namespace RuleTable

variable (table : RuleTable)

def insert (kind : String) (mode : TargetMode) (rule : Rule) : RuleTable where
  rules := Association.alter kind
    (fun modes ↦ Association.alter mode (fun _ ↦ rule) (modes.getD [])) table.rules

def extend (other : RuleTable) : RuleTable where
  rules := other.rules.foldl (fun rules (kind, modes) ↦
    Association.alter kind (fun present ↦
      modes.foldl (fun l (mode, rule) ↦ Association.alter mode (fun _ ↦ rule) l)
        (present.getD [])) rules) table.rules

def size : Nat :=
  table.rules.length

def contains (kind : String) : Bool :=
  (table.rules.lookup kind).isSome

/-- The rule for a mode. What has no rule of its own for the legacy target needs none there, so the
modern rule is used. -/
def rule? (kind : String) (mode : TargetMode) : Option Rule := do
  let modes ← table.rules.lookup kind
  modes.lookup mode <|> modes.lookup .modern

def resolve? (construct : Construct) (mode : TargetMode) : Option String :=
  (table.rule? construct.kind mode).map (· construct)

def modeLabel : TargetMode → String
  | .modern => "Modern"
  | .legacy => "Legacy"

def entryLabel (kind : String) (modes : List (TargetMode × Rule)) : String :=
  Text.quoted kind ++ ": [" ++ ", ".intercalate (modes.map (modeLabel ·.1)) ++ "]"

def summary : String :=
  "\x7b" ++ ", ".intercalate (table.rules.map fun (kind, modes) ↦ entryLabel kind modes) ++ "\x7d"

end RuleTable

end PairedSource
