import PairedSource.Proofs.FileTree.Writing
import PairedSource.Proofs.Concurrent.Request

namespace PairedSource.FileTree

variable {tree other now now' : FileTree} {scope : Location → Prop} {p : Path}
  {l directory : Location} {c c' content : ByteArray} {name : String} {P : ByteArray → Prop}

theorem Agree.file?_of_fileAt (h : Agree scope tree other) (hfile : tree.file? p = some (l, c))
    (hl : other.fileAt l = some c') : other.file? p = some (l, c') := by
  obtain ⟨directory, name, hslot, hname, rfl⟩ := exists_isSlot_of_file? hfile
  have hadm := (file?_eq_some_iff.1 hfile).1
  exact ((h.isSlot hslot).file?_eq_some_iff hname).2 ⟨hadm, rfl, occupant?_eq_file_iff.2 hl⟩

/-- A tree with the entries of another, over which files of one kind may have been put. -/
def Overlays (P : ByteArray → Prop) (now tree : FileTree) : Prop :=
  Agree (fun l ↦ ∀ c, now.fileAt l = some c → ¬P c) now tree

/-- A path that leads to a file of one kind goes on doing so. -/
def Keeps (P : ByteArray → Prop) (now now' : FileTree) : Prop :=
  ∀ p l c, now.file? p = some (l, c) → P c → ∃ c', now'.file? p = some (l, c') ∧ P c'

theorem Keeps.refl (P : ByteArray → Prop) (now : FileTree) : Keeps P now now :=
  fun _ _ c hfile hc ↦ ⟨c, hfile, hc⟩

namespace Overlays

theorem refl (P : ByteArray → Prop) (tree : FileTree) : Overlays P tree tree :=
  Agree.refl _ tree

variable (h : Overlays P now tree)

include h

theorem exists_file? (hfile : tree.file? p = some (l, c)) : ∃ c', now.file? p = some (l, c') := by
  cases hl : now.fileAt l with
  | some c' => exact ⟨c', h.symm.file?_of_fileAt hfile hl⟩
  | none =>
    have hkept := fileAt_eq_of_occupant?_eq (h.entry l fun c hc ↦ by simp [hl] at hc)
    rw [hl, (file?_eq_some_iff.1 hfile).2.2] at hkept
    cases hkept

theorem canonical?_eq (hfile : (tree.file? p).isSome = true) :
    now.canonical? p = tree.canonical? p := by
  obtain ⟨⟨l, c⟩, hfile⟩ := Option.isSome_iff_exists.1 hfile
  obtain ⟨c', hnow⟩ := h.exists_file? hfile
  rw [canonical?_of_file? hfile, canonical?_of_file? hnow, Agree.start_eq h]

theorem file?_eq_or (p : Path) :
    now.file? p = tree.file? p ∨ ∃ l c, now.file? p = some (l, c) ∧ P c := by
  cases hnow : now.file? p with
  | none =>
    cases hfile : tree.file? p with
    | none => exact .inl rfl
    | some found =>
      obtain ⟨c', hc'⟩ := h.exists_file? hfile
      rw [hnow] at hc'
      cases hc'
  | some found =>
    obtain ⟨l, c⟩ := found
    by_cases hc : P c
    · exact .inr ⟨l, c, rfl, hc⟩
    · have hl := (file?_eq_some_iff.1 hnow).2.2
      have hkept := fileAt_eq_of_occupant?_eq (h.entry l fun c' hc' ↦ by
        obtain rfl := Option.some.inj (hl.symm.trans hc')
        exact hc)
      exact .inl (h.file?_of_fileAt hnow (hkept.symm.trans hl)).symm

theorem fileAt_eq_none (hnow : now.file? p = some (l, c)) (hfile : tree.file? p = none) :
    tree.fileAt l = none := by
  cases hl : tree.fileAt l with
  | none => rfl
  | some c' =>
    rw [h.file?_of_fileAt hnow hl] at hfile
    cases hfile

theorem serve_place (hslot : IsSlot now p directory name) (hcontent : P content) :
    Overlays P (now.serve (.place p content)).1 tree ∧
      Keeps P now (now.serve (.place p content)).1 := by
  simp only [FileTree.serve, hslot.place_eq]
  by_cases hplace : now.isPlaceable p directory name = true
  · simp only [if_pos hplace]
    obtain ⟨-, -, -, -, hfree⟩ := isPlaceable_iff.1 hplace
    have hset := agree_set hslot.isDirectory hfree content
    have hplaced : (now.set (directory ++ [name]) (.file content)).fileAt (directory ++ [name]) =
        some content := by
      rw [← occupant?_eq_file_iff, occupant?_set hslot.isDirectory hfree, if_pos rfl]
    generalize now.set (directory ++ [name]) (.file content) = placed at hset hplaced
    have helsewhere : ∀ l, l ≠ directory ++ [name] → placed.fileAt l = now.fileAt l :=
      fun l hl ↦ fileAt_eq_of_occupant?_eq (hset.entry l hl)
    constructor
    · have hne : ∀ l, (∀ c, placed.fileAt l = some c → ¬P c) → l ≠ directory ++ [name] := by
        rintro _ hl rfl
        exact hl content hplaced hcontent
      refine (hset.mono hne).trans (h.mono fun l hl c hc ↦ hl c ?_)
      rw [helsewhere l (hne l hl), hc]
    · intro p l c hfile hc
      by_cases hl : l = directory ++ [name]
      · subst hl
        exact ⟨content, hset.symm.file?_of_fileAt hfile hplaced, hcontent⟩
      · refine ⟨c, hset.symm.file?_of_fileAt hfile ?_, hc⟩
        rw [helsewhere l hl, (file?_eq_some_iff.1 hfile).2.2]
  · simp only [if_neg hplace]
    exact ⟨h, .refl P now⟩

end Overlays

end PairedSource.FileTree
