import PairedSource.FileTree

namespace PairedSource

/-- What a file is known by: where it is, or the steps of its path if that cannot be told. -/
inductive Identity where
  | found (location : Location)
  | spelled (components : List Path.Component)
  deriving DecidableEq

def Identity.ofAnswer (path : Path) : Option Location → Identity
  | some location => .found location
  | none => .spelled path.components

namespace FileTree

def nameLength : Location → Nat
  | [] => 0
  | name :: rest => name.utf8ByteSize + 1 + nameLength rest

/-- Whether what stands before these segments has to be a directory although no name follows. -/
def needsDirectory : List String → Bool
  | [] => false
  | [s] => s = "" || s = "." || s = ".."
  | s :: t :: rest => if s = "" ∨ s = "." then needsDirectory (t :: rest) else s = ".."

/-- Whether all that is passed on the way from a location can be asked about by its absolute path.
That of a directory gets a slash at its end where no name follows. -/
def isNameable (at_ : Location) : List String → Bool
  | [] => true
  | s :: rest =>
    if s = "" ∨ s = "." then isNameable at_ rest
    else if s = ".." then isNameable at_.dropLast rest
    else
      nameLength (at_ ++ [s]) + (if needsDirectory rest then 1 else 0) ≤ maxPathLength &&
        isNameable (at_ ++ [s]) rest

variable (tree : FileTree)

/-- Where a path leads, if that has an absolute path of its own. A relative path may be short enough
although the absolute one is not. -/
def canonical? (p : Path) : Option Location :=
  match tree.locate p with
  | .ok location => if isNameable (tree.start p) p.segments then some location else none
  | .error _ => none

def identity (p : Path) : Identity :=
  .ofAnswer p (tree.canonical? p)

section Finite

noncomputable def texts : Nat → List (List Char)
  | 0 => [[]]
  | n + 1 => [] :: (List.range 0x110000).flatMap fun c ↦ (texts n).map (Char.ofNat c :: ·)

theorem mem_texts {n : Nat} {text : List Char} (h : text.length ≤ n) : text ∈ texts n := by
  induction n generalizing text with
  | zero => simp [texts, List.length_eq_zero_iff.1 (Nat.le_zero.1 h)]
  | succ n ih =>
    cases text with
    | nil => exact List.mem_cons_self
    | cons c text =>
      refine List.mem_cons_of_mem _ (List.mem_flatMap.2 ⟨c.toNat, ?_, ?_⟩)
      · have hvalid := c.valid
        simp only [UInt32.isValidChar, Nat.isValidChar] at hvalid
        rw [List.mem_range, Char.toNat]
        omega
      · rw [Char.ofNat_toNat]
        exact List.mem_map_of_mem (ih (Nat.le_of_succ_le_succ h))

theorem length_toList_le_utf8ByteSize (s : String) : s.toList.length ≤ s.utf8ByteSize := by
  rw [← String.ofList_toList (s := s)]
  induction s.toList with
  | nil => simp
  | cons c l ih =>
    have hc := c.utf8Size_pos
    simp only [String.ofList_cons, String.utf8ByteSize_append, String.utf8ByteSize_singleton,
      String.toList_append, String.toList_singleton, List.length_append, List.length_singleton]
    omega

noncomputable def identities : List Identity :=
  tree.files.map .found ++
    (texts maxPathLength).map fun text ↦ .spelled (Path.mk (String.ofList text)).components

theorem identity_mem_identities {p : Path} (h : (tree.file? p).isSome = true) :
    tree.identity p ∈ tree.identities := by
  obtain ⟨⟨l, content⟩, hfile⟩ := Option.isSome_iff_exists.1 h
  obtain ⟨hlocate, hlength⟩ : tree.locate p = .ok l ∧ p.text.utf8ByteSize ≤ maxPathLength := by
    simp only [file?, locate] at hfile ⊢
    split at hfile <;> grind [isAdmissible]
  rw [identity, canonical?, hlocate, identities, List.mem_append]
  by_cases hname : isNameable (tree.start p) p.segments = true
  · refine .inl (List.mem_map.2 ⟨l, tree.mem_files_of_file? hfile, ?_⟩)
    simp [hname, Identity.ofAnswer]
  · have htext := Nat.le_trans (length_toList_le_utf8ByteSize p.text) hlength
    refine .inr (List.mem_map.2 ⟨p.text.toList, mem_texts htext, ?_⟩)
    simp [hname, Identity.ofAnswer]

end Finite

end FileTree

end PairedSource
