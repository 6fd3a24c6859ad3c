import PairedSource.Proofs.FileTree.Identity
import PairedSource.Proofs.FileTree.Writing

namespace PairedSource

/-- What a run asks of the files, one thing at a time. -/
inductive Request where
  | isFile (path : Path)
  | canonical (path : Path)
  | read (path : Path)
  | makeDirectories (path : Path)
  | place (path : Path) (content : ByteArray)

def Request.Answer : Request → Type
  | .isFile _ => Bool
  | .canonical _ => Option Location
  | .read _ => Option ByteArray
  | .makeDirectories _ => Bool
  | .place _ _ => Bool

namespace FileTree

def serve (tree : FileTree) : (request : Request) → FileTree × request.Answer
  | .isFile p => (tree, tree.isFile p)
  | .canonical p => (tree, tree.canonical? p)
  | .read p => (tree, (tree.file? p).map Prod.snd)
  | .makeDirectories p => tree.makeDirectories (directoryFor p).ancestors
  | .place p content =>
    match tree.place p content with
    | some placed => (placed, true)
    | none => (tree, false)

variable {tree other : FileTree} {scope scope' own : Location → Prop} {request : Request}
  {p : Path} {directory : Location} {name : String}

section Serving

variable {found : Option (Location × ByteArray)}

theorem serve_isFile (h : tree.file? p = found) :
    tree.serve (.isFile p) = (tree, found.isSome) := by
  rw [serve, isFile_eq, h]
  rfl

theorem serve_read (h : tree.file? p = found) :
    tree.serve (.read p) = (tree, found.map Prod.snd) := by
  rw [serve, h]
  rfl

end Serving

/-- A request that looks at a scope only, and writes only to places of its own. -/
def Allows (tree : FileTree) (scope own : Location → Prop) : Request → Prop
  | .isFile p | .canonical p | .read p => EndsWithin scope tree p
  | .makeDirectories p | .place p _ =>
    ∃ directory name, IsSlot tree p directory name ∧ isName name = true ∧
      own (directory ++ [name])

theorem Agree.allows (h : Agree scope' tree other) (ha : Allows tree scope own request) :
    Allows other scope own request := by
  cases request with
  | isFile p | canonical p | read p => exact h.endsWithin ha
  | makeDirectories p | place p content =>
    obtain ⟨directory, name, hslot, hname, hown⟩ := ha
    exact ⟨directory, name, h.isSlot hslot, hname, hown⟩

theorem Agree.set (h : Agree scope tree other) (hdir : tree.occupant? directory = some none)
    (hfree : tree.occupant? (directory ++ [name]) ≠ some none) (content : ByteArray) :
    Agree scope (tree.set (directory ++ [name]) (.file content))
      (other.set (directory ++ [name]) (.file content)) := by
  have hdir' := (h.directory _).1 hdir
  have hfree' := mt (h.directory _).2 hfree
  refine ⟨h.workingDirectory, fun l ↦ ?_, fun l hl ↦ ?_⟩
  · rw [occupant?_set hdir hfree, occupant?_set hdir' hfree']
    split
    · exact Iff.rfl
    · exact h.directory l
  · rw [occupant?_set hdir hfree, occupant?_set hdir' hfree', h.entry l hl]

theorem Agree.serve (h : Agree scope tree other) (ha : Allows tree scope own request) :
    (tree.serve request).2 = (other.serve request).2 ∧
      Agree scope (tree.serve request).1 (other.serve request).1 := by
  cases request with
  | isFile p =>
    refine ⟨?_, h⟩
    simp only [FileTree.serve, isFile_eq, h.file?_eq ha]
    rfl
  | canonical p => exact ⟨h.canonical?_eq ha, h⟩
  | read p =>
    refine ⟨?_, h⟩
    simp only [FileTree.serve, h.file?_eq ha]
    rfl
  | makeDirectories p =>
    obtain ⟨directory, name, hslot, hname, -⟩ := ha
    simp only [FileTree.serve, hslot.makeDirectories_eq hname,
      (h.isSlot hslot).makeDirectories_eq hname, h.isDirectory_eq]
    exact ⟨rfl, h⟩
  | place p content =>
    obtain ⟨directory, name, hslot, -, -⟩ := ha
    simp only [FileTree.serve, hslot.place_eq, (h.isSlot hslot).place_eq, ← h.isPlaceable_eq]
    by_cases hplace : tree.isPlaceable p directory name = true
    · simp only [if_pos hplace]
      obtain ⟨-, -, -, -, hfree⟩ := isPlaceable_iff.1 hplace
      exact ⟨rfl, h.set hslot.isDirectory hfree content⟩
    · simp only [if_neg hplace]
      exact ⟨rfl, h⟩

/-- A request changes nothing outside the places that are its own. -/
theorem agree_serve (ha : Allows tree scope own request) :
    Agree (¬own ·) (tree.serve request).1 tree := by
  cases request with
  | isFile p | canonical p | read p => exact .refl _ tree
  | makeDirectories p =>
    obtain ⟨directory, name, hslot, hname, -⟩ := ha
    simp only [FileTree.serve, hslot.makeDirectories_eq hname]
    exact .refl _ tree
  | place p content =>
    obtain ⟨directory, name, hslot, -, hl⟩ := ha
    simp only [FileTree.serve, hslot.place_eq]
    split
    · rename_i placed heq
      split at heq
      · rename_i hplace
        obtain rfl := Option.some.inj heq
        obtain ⟨-, -, -, -, hfree⟩ := isPlaceable_iff.1 hplace
        refine (agree_set hslot.isDirectory hfree content).mono ?_
        intro l hnot heq
        subst heq
        exact hnot hl
      · cases heq
    · exact .refl _ tree

end FileTree

end PairedSource
