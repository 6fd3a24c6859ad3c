import PairedSource.FileTree

namespace PairedSource

def isStorable (name : String) : Bool :=
  name.utf8ByteSize ≤ 255

inductive Overwrite where
  | always
  | ifChanged
  deriving Repr, DecidableEq

inductive WriteResult where
  | written
  | unchanged
  deriving Repr, DecidableEq

namespace FileTree

variable (tree : FileTree)

def set (location : Location) (node : Node) : FileTree :=
  { tree with root := tree.root.set location node }

def slot (p : Path) : Except PathFault (Location × List (String × Node) × String) :=
  match p.segments.reverse with
  | [] => .error .absent
  | last :: before => do
    if !isAdmissible p then throw .unavailable
    let directory ← before.reverse.foldlM tree.step (tree.start p)
    match tree.root.find? directory with
    | some (.directory children) => return (directory, children, last)
    | _ => throw .notDirectory

def isName (segment : String) : Bool :=
  segment ≠ "" && segment ≠ "." && segment ≠ ".."

def makeDirectory (p : Path) : Except PathFault FileTree := do
  let (directory, children, name) ← tree.slot p
  if isName name && isStorable name && (children.lookup name).isNone then
    return tree.set (directory ++ [name]) (.directory [])
  else
    throw .unavailable

/-- Makes the first of the given paths, after those behind it where something is missing, and
tells whether it is a directory in the end. What was made stays when a later step fails. -/
def makeDirectories (tree : FileTree) : List Path → FileTree × Bool
  | [] => (tree, true)
  | p :: above =>
    match tree.makeDirectory p with
    | .ok made => (made, true)
    | .error .absent =>
      match makeDirectories tree above with
      | (tree, false) => (tree, false)
      | (tree, true) =>
        match tree.makeDirectory p with
        | .ok made => (made, true)
        | .error _ => (tree, tree.isDirectory p)
    | .error _ => (tree, tree.isDirectory p)

def directoryFor (p : Path) : Path :=
  match p.parent? with
  | some ⟨""⟩ | none => ⟨"."⟩
  | some parent => parent

/-- The absolute path under which a text is kept until all of it is there. -/
def temporary (p : Path) : Path :=
  let workingDirectory : Path := ⟨"/" ++ "/".intercalate tree.workingDirectory⟩
  (workingDirectory.join (directoryFor p)).join ⟨".tmpXXXXXX"⟩

def place (p : Path) (content : ByteArray) : Option FileTree :=
  match tree.slot p with
  | .error _ => none
  | .ok (directory, children, name) =>
    if isAdmissible (tree.temporary p) && isName name && isStorable name &&
        !(children.lookup name).any Node.isDirectory then
      some (tree.set (directory ++ [name]) (.file content))
    else
      none

def writeFile (p : Path) (content : ByteArray) : FileTree × Option WriteResult :=
  match tree.makeDirectories (directoryFor p).ancestors with
  | (tree, false) => (tree, none)
  | (tree, true) =>
    match tree.place p content with
    | some placed => (placed, some .written)
    | none => (tree, none)

def write (p : Path) (text : String) (overwrite : Overwrite) : FileTree × Option WriteResult :=
  let content := text.toUTF8
  match overwrite, tree.file? p with
  | .ifChanged, some (_, present) =>
    if present.data = content.data then (tree, some .unchanged) else tree.writeFile p content
  | _, _ => tree.writeFile p content

end FileTree

end PairedSource
