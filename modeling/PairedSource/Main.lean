import PairedSource.CommandLine.Program
import PairedSource.FileTree.Changes
import PairedSource.FileTree.Plant

namespace PairedSource.Main

def follow (start : Location) (path : Path) : Location :=
  path.segments.foldl (fun location segment ↦
    if segment = "" ∨ segment = "." then location
    else if segment = ".." then location.dropLast
    else location ++ [segment]) (if path.isAbsolute then [] else start)

def absolute (location : Location) : String :=
  "/" ++ "/".intercalate location

def entryAt (place : Location) : IO.FS.DirEntry where
  root := absolute place.dropLast
  fileName := place.getLast?.getD ""

/-- Reads everything below a directory. Links to directories are left out, and what cannot be read
is taken for missing. -/
partial def readDirectory (directory : IO.FS.DirEntry) : IO Node := do
  let mut children : List (String × Node) := []
  for entry in ← directory.path.readDir do
    try
      let type := (← entry.path.symlinkMetadata).type
      if type == .dir then
        children := (entry.fileName, ← readDirectory entry) :: children
      else if type == .file || (type == .symlink && !(← entry.path.isDir)) then
        children := (entry.fileName, .file (← IO.FS.readBinFile entry.path)) :: children
    catch _ => pure ()
  return .directory children

def readTree (argv : List String) : IO FileTree := do
  let workingDirectory := follow [] ⟨(← IO.currentDir).toString⟩
  let mut root : Node := .directory []
  let mut known : List Location := []
  for path in ⟨"."⟩ :: argv.map Path.mk do
    let place := follow workingDirectory path
    if ← (entryAt place).path.pathExists then
      let directory := if ← (entryAt place).path.isDir then place else place.dropLast
      if !known.any (·.isPrefixOf directory) then
        let node ← readDirectory (entryAt directory)
        root := root.plant (fun _ ↦ node) directory
        known := directory :: known
  return { root, workingDirectory }

/-- Writes a file under another name first, so that nobody sees half of it. -/
def replaceFile (path : String) (content : ByteArray) : IO Unit := do
  let temporary := path ++ ".new"
  IO.FS.writeBinFile temporary content
  IO.FS.rename temporary path

/-- Brings the files from what they were to what they should be. What is gone goes first, a
directory after what was in it. -/
def apply (before after : FileTree) : IO Unit := do
  for removed in (Node.removals before.root after.root).reverse do
    match (before.root.find? removed).bind Node.content? with
    | none => IO.FS.removeDir (absolute removed)
    | some _ => IO.FS.removeFile (absolute removed)
  for (changed, content) in Node.changes before.root after.root do
    match content with
    | none => IO.FS.createDirAll (absolute changed)
    | some bytes => replaceFile (absolute changed) bytes

end PairedSource.Main

open PairedSource in
def main (argv : List String) : IO UInt32 := do
  let tree ← Main.readTree argv
  let answer := CommandLine.answer tree argv
  Main.apply tree answer.tree
  for line in answer.errors do
    IO.eprintln line
  IO.print answer.output
  return answer.exitCode.toUInt32
