import PairedSource.FileTree
import PairedSource.SourceText

namespace PairedSource

def SourceText.ofBytes (path : Path) (content : ByteArray) : Except Error SourceText :=
  match String.fromUTF8? content with
  | some text => .ok { path, text }
  | none => .error (.inputUnreadable path)

def FileTree.readSource (tree : FileTree) (path : Path) : Except Error SourceText :=
  match tree.file? path with
  | some (_, content) => SourceText.ofBytes path content
  | none => .error (.inputUnreadable path)

end PairedSource
