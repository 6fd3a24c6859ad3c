import PairedSource.Color

namespace PairedSource

inductive Entry where
  | identifier (value : String)
  | color (color : Color)
  deriving Repr, DecidableEq

def Entry.isColor : Entry → Bool
  | .identifier _ => false
  | .color _ => true

end PairedSource
