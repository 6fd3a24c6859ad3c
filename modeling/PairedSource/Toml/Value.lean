import PairedSource.Association
import PairedSource.Binary64
import PairedSource.Span
import PairedSource.Toml.DateTime
import PairedSource.Toml.Error

namespace PairedSource.Toml

structure Located (α : Type) where
  value : α
  span : Span
  deriving Repr

structure Keyed (α : Type) extends Located α where
  keySpan : Span
  deriving Repr

/-- How a table came about: by a header of its own, by a longer header, by a key with dots, or
between braces. -/
inductive TableForm where
  | explicit
  | implied
  | dotted
  | inline
  deriving Repr, DecidableEq

structure TableOf (α : Type) where
  form : TableForm
  fields : List (String × Keyed α) := []
  deriving Repr

/-- A value; `outOfRange` is a number that is too large or has letters among its digits, which
counts only where the value is asked for. -/
inductive Value where
  | text (text : String)
  | integer (n : Int)
  | float (x : Binary64)
  | outOfRange (kind : NumberKind)
  | boolean (b : Bool)
  | dateTime (dateTime : DateTime)
  | array (items : List (Located Value))
  | tables (elements : List (Located (TableOf Value)))
  | table (table : TableOf Value)

abbrev Table := TableOf Value

def fitsSigned (bits : Nat) (n : Int) : Bool :=
  let bound : Int := Nat.pow 2 (bits - 1)
  decide (-bound ≤ n ∧ n < bound)

def fitsUnsigned (bits : Nat) (n : Int) : Bool :=
  decide (0 ≤ n ∧ n < Nat.pow 2 bits)

def Value.isInRange : Value → Bool
  | .integer n => fitsSigned 64 n
  | .outOfRange _ => false
  | _ => true

def Value.kindName : Value → String
  | .text _ => "string"
  | .integer _ | .outOfRange .integer => "integer"
  | .float _ | .outOfRange .float => "float"
  | .boolean _ => "boolean"
  | .dateTime _ => "datetime"
  | .array _ | .tables _ => "array"
  | .table inner => if inner.form = .inline then "inline table" else "table"

end PairedSource.Toml
