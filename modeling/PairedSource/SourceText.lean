import PairedSource.Error
import PairedSource.Text.Search

namespace PairedSource

/-- Where a value stands in a text: between double quotes if it does so anywhere, else between
single quotes, else anywhere. -/
def Text.locate? (needle s : String) : Option Span :=
  match find? ("\"" ++ needle ++ "\"") s, find? ("'" ++ needle ++ "'") s, find? needle s with
  | some offset, _, _ | none, some offset, _ => some ⟨offset + 1, needle.utf8ByteSize⟩
  | none, none, some offset => some ⟨offset, needle.utf8ByteSize⟩
  | none, none, none => none

structure SourceText where
  path : Path
  text : String
  deriving Repr, DecidableEq

namespace SourceText

variable (source : SourceText)

def relative (target : String) : Path :=
  (source.path.parent?.getD ⟨""⟩).join ⟨target⟩

def errorAt (fault : InputFault) (needle : String) : Error :=
  .invalidInput source.path fault (Text.locate? needle source.text)

end SourceText

end PairedSource
