import PairedSource.Association
import PairedSource.Path

namespace PairedSource

/-- A regular file with its bytes, or a directory with its named children. -/
inductive Node where
  | file (content : ByteArray)
  | directory (children : List (String × Node))
  deriving Inhabited

abbrev Location := List String

namespace Node

def isFile : Node → Bool
  | .file _ => true
  | .directory _ => false

def isDirectory : Node → Bool
  | .file _ => false
  | .directory _ => true

def children : Node → List (String × Node)
  | .file _ => []
  | .directory children => children

def find? : Node → Location → Option Node
  | node, [] => some node
  | .file _, _ :: _ => none
  | .directory children, name :: rest =>
    match children.lookup name with
    | some child => child.find? rest
    | none => none

def set : Node → Location → Node → Node
  | _, [], new => new
  | .file content, _ :: _, _ => .file content
  | .directory children, [name], new =>
    .directory (Association.alter name (fun _ ↦ new) children)
  | .directory children, name :: rest, new =>
    match children.lookup name with
    | none => .directory children
    | some child => .directory (Association.alter name (fun _ ↦ child.set rest new) children)

mutual

def files : Node → List Location
  | .file _ => [[]]
  | .directory children => filesOf children

def filesOf : List (String × Node) → List Location
  | [] => []
  | (name, child) :: rest => child.files.map (name :: ·) ++ filesOf rest

end

theorem map_files_subset_filesOf {name : String} {child : Node} {children : List (String × Node)}
    (h : children.lookup name = some child) {rest : Location} (hr : rest ∈ child.files) :
    name :: rest ∈ filesOf children := by
  induction children with
  | nil => simp at h
  | cons entry others ih =>
    obtain ⟨other, node⟩ := entry
    simp only [filesOf, List.mem_append]
    by_cases hn : name = other
    · subst hn
      simp only [List.lookup_cons, beq_self_eq_true, Option.some.injEq] at h
      exact .inl (List.mem_map.2 ⟨rest, h ▸ hr, rfl⟩)
    · rw [List.lookup_cons, beq_false_of_ne hn] at h
      exact .inr (ih h)

theorem mem_files_of_find? {node : Node} {location : Location} {content : ByteArray}
    (h : node.find? location = some (.file content)) : location ∈ node.files := by
  induction location generalizing node with
  | nil =>
    simp only [find?, Option.some.injEq] at h
    simp [h, files]
  | cons name rest ih =>
    match node with
    | .file _ => simp [find?] at h
    | .directory children =>
      simp only [find?] at h
      split at h
      · rename_i child hc
        exact map_files_subset_filesOf hc (ih h)
      · simp at h

end Node

/-- The files that a program sees, and the directory its relative paths start from. -/
structure FileTree where
  root : Node
  workingDirectory : Location

inductive PathFault where
  | absent
  | notDirectory
  | unavailable
  deriving Repr, DecidableEq

namespace FileTree

variable (tree : FileTree)

/-- Goes one segment on from a location: everything but the last stop has to be a directory. -/
def step (at_ : Location) (segment : String) : Except PathFault Location :=
  match tree.root.find? at_ with
  | none => .error .absent
  | some (.file _) => .error .notDirectory
  | some (.directory children) =>
    if segment = "" ∨ segment = "." then .ok at_
    else if segment = ".." then .ok at_.dropLast
    else if (children.lookup segment).isSome then .ok (at_ ++ [segment])
    else .error .absent

def maxPathLength : Nat := 4095

/-- Whether a path is asked about at all: it is not too long, and no null character ends it
early. -/
def isAdmissible (p : Path) : Bool :=
  p.text.utf8ByteSize ≤ maxPathLength && !p.text.toList.contains '\x00'

def start (p : Path) : Location :=
  if p.isAbsolute then [] else tree.workingDirectory

def locate (p : Path) : Except PathFault Location :=
  if p.text.isEmpty then .error .absent
  else if !isAdmissible p then .error .unavailable
  else p.segments.foldlM tree.step (tree.start p)

def node? (p : Path) : Option Node :=
  match tree.locate p with
  | .ok location => tree.root.find? location
  | .error _ => none

def pathExists (p : Path) : Bool :=
  (tree.node? p).isSome

def isFile (p : Path) : Bool :=
  (tree.node? p).any Node.isFile

def isDirectory (p : Path) : Bool :=
  (tree.node? p).any Node.isDirectory

def file? (p : Path) : Option (Location × ByteArray) :=
  match tree.locate p with
  | .error _ => none
  | .ok location =>
    match tree.root.find? location with
    | some (.file content) => some (location, content)
    | _ => none

def files : List Location :=
  tree.root.files

theorem mem_files_of_file? {p : Path} {location : Location} {content : ByteArray}
    (h : tree.file? p = some (location, content)) : location ∈ tree.files := by
  simp only [file?] at h
  split at h
  · simp at h
  · split at h
    · rename_i hf
      simp only [Option.some.injEq, Prod.mk.injEq] at h
      obtain ⟨rfl, rfl⟩ := h
      exact Node.mem_files_of_find? hf
    · simp at h

def entries (p : Path) : List String :=
  match tree.node? p with
  | some node => node.children.map Prod.fst
  | none => []

end FileTree

end PairedSource
