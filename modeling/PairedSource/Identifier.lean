import PairedSource.Text.LetterCase
import PairedSource.Text.Split

namespace PairedSource.Identifier

open Text

def words (s : String) : List String :=
  ((pieces (!Char.isAlphanum ·) s.toList).filter (!·.isEmpty)).map String.ofList

def pascalCase (s : String) : String :=
  String.join ((words s).map upperFirst)

def camelCase (s : String) : String :=
  lowerFirst (pascalCase s)

def isStart (c : Char) : Bool :=
  c.isAlpha || c == '_'

def isContinuation (c : Char) : Bool :=
  c.isAlphanum || c == '_'

def isIdentifier (s : String) : Bool :=
  match s.toList with
  | [] => false
  | c :: cs => isStart c && cs.all isContinuation

end PairedSource.Identifier
