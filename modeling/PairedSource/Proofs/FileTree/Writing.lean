import PairedSource.Output
import PairedSource.Proofs.FileTree.Placing

namespace PairedSource

namespace FileTree

variable {tree : FileTree} {p : Path} {directory l : Location} {name : String} {content : ByteArray}

theorem agree_set (hdir : tree.occupant? directory = some none)
    (hfree : tree.occupant? (directory ++ [name]) ≠ some none) (content : ByteArray) :
    Agree (· ≠ directory ++ [name]) (tree.set (directory ++ [name]) (.file content)) tree := by
  refine ⟨rfl, fun l ↦ ?_, fun l hl ↦ ?_⟩
  · rw [occupant?_set hdir hfree]
    by_cases hl : l = directory ++ [name]
    · simp [hl, hfree]
    · rw [if_neg hl]
  · rw [occupant?_set hdir hfree, if_neg hl]

section Write

variable {text : String}

theorem write_eq_unchanged (h : tree.file? p = some (l, text.toUTF8)) :
    tree.write p text .ifChanged = (tree, some .unchanged) := by
  simp only [write, h, if_true]

theorem write_eq_writeFile (h : ∀ l, tree.file? p ≠ some (l, text.toUTF8)) :
    tree.write p text .ifChanged = tree.writeFile p text.toUTF8 := by
  unfold write
  cases hfile : tree.file? p with
  | none => rfl
  | some found =>
    obtain ⟨l, present⟩ := found
    refine if_neg fun hsame ↦ h l ?_
    rw [hfile, ByteArray.ext hsame]

end Write

namespace IsSlot

variable (h : IsSlot tree p directory name) (hname : isName name = true)

include h hname

theorem file?_eq_some_iff : tree.file? p = some (l, content) ↔
    isAdmissible p = true ∧ l = directory ++ [name] ∧ tree.occupant? l = some (some content) := by
  rw [FileTree.file?_eq_some_iff, occupant?_eq_file_iff]
  refine and_congr_right fun _ ↦ ⟨fun ⟨hw, hc⟩ ↦ ?_, fun ⟨hl, hc⟩ ↦ ?_⟩
  · obtain ⟨front, hseg, -⟩ := h.front
    obtain ⟨directory', hslot, rfl⟩ := exists_isSlot_of_walk hseg hname hw
    exact ⟨by rw [h.unique hslot], hc⟩
  · obtain ⟨⟨front, hseg, hw⟩, hdir⟩ := h
    have hthere : (tree.occupant? l).isSome = true := by
      rw [occupant?_eq_file_iff.2 hc]
      rfl
    refine ⟨?_, hc⟩
    rw [hseg, walk_append, hw, Except.ok_bind, walk_singleton]
    exact step_eq_ok_iff.2 ⟨hdir, .inr (.inr ⟨hname, hthere, hl⟩)⟩

/-- Where the directory is there, nothing but the file itself is made. -/
theorem writeFile_eq (content : ByteArray) : tree.writeFile p content =
    if tree.isPlaceable p directory name = true then
      (tree.set (directory ++ [name]) (.file content), some .written)
    else (tree, none) := by
  rw [writeFile, h.makeDirectories_eq hname]
  by_cases hplace : tree.isPlaceable p directory name = true
  · have hthere := h.isDirectory_directoryFor hname (isPlaceable_iff.1 hplace).1
    simp only [hthere, Bool.or_true, h.place_eq, if_pos hplace]
  · generalize ((directoryFor p).ancestors.isEmpty || tree.isDirectory (directoryFor p)) = there
    cases there with
    | false => rw [if_neg hplace]
    | true => simp only [h.place_eq, if_neg hplace]

theorem fileName?_eq : p.fileName? = some name := by
  obtain ⟨front, hseg, -⟩ := h.front
  have hn := isName_iff.1 hname
  exact Path.fileName?_eq hseg hn.1 hn.2.1 hn.2.2

end IsSlot

end FileTree

open FileTree

variable {tree final : FileTree} {directory : Path} {artifacts : List Artifact}
  {outcome outcome' : WriteOutcome}

theorem writeArtifacts_cons (artifact : Artifact) :
    writeArtifacts directory tree outcome (artifact :: artifacts) =
      match tree.write (artifact.pathIn directory) artifact.content .ifChanged with
      | (tree, some result) => writeArtifacts directory tree
          (outcome.add (artifact.pathIn directory) result) artifacts
      | (tree, none) => (tree, .error (.writeFailure (artifact.pathIn directory) artifact.kind
          outcome.written)) :=
  (rfl)

namespace WriteOutcome

theorem isEmpty_iff : outcome.isEmpty = true ↔ outcome.size = 0 := by
  rw [isEmpty, Bool.and_eq_true, List.isEmpty_iff, List.isEmpty_iff, size, Nat.add_eq_zero_iff,
    List.length_eq_zero_iff, List.length_eq_zero_iff]

theorem size_add (outcome : WriteOutcome) (path : Path) (result : WriteResult) :
    (outcome.add path result).size = outcome.size + 1 := by
  cases result <;> simp only [add, size, List.length_append, List.length_singleton] <;> omega

end WriteOutcome

/-- No artifact is left out of the outcome, and none is in it twice. -/
theorem size_writeArtifacts
    (h : writeArtifacts directory tree outcome artifacts = (final, .ok outcome')) :
    outcome'.size = outcome.size + artifacts.length := by
  induction artifacts generalizing tree outcome with
  | nil =>
    obtain ⟨-, hok⟩ := Prod.mk.inj h
    rw [Except.ok.inj hok, List.length_nil, Nat.add_zero]
  | cons artifact artifacts ih =>
    rw [writeArtifacts_cons] at h
    split at h
    · rw [ih h, WriteOutcome.size_add, List.length_cons]
      omega
    · cases (Prod.mk.inj h).2

end PairedSource
