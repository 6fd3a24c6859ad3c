import PairedSource.Proofs.FileTree.Placing

namespace PairedSource.FileTree

/-- What writing makes of a tree: nothing goes away, directories stay, and files keep their content
except at the places that were touched. Directories may have been made. -/
structure Later (touched : Location → Prop) (tree later : FileTree) : Prop where
  workingDirectory : later.workingDirectory = tree.workingDirectory
  directory : ∀ l, tree.occupant? l = some none → later.occupant? l = some none
  isSome : ∀ l, (tree.occupant? l).isSome = true → (later.occupant? l).isSome = true
  fileAt : ∀ l, ¬touched l → later.fileAt l = tree.fileAt l

variable {tree later third : FileTree} {touched touched' : Location → Prop} {p : Path}
  {a b l directory : Location} {s name : String} {segments : List String} {content : ByteArray}
  {children : List (String × Node)}

namespace Later

theorem refl (touched : Location → Prop) (tree : FileTree) : Later touched tree tree :=
  ⟨rfl, fun _ h ↦ h, fun _ h ↦ h, fun _ _ ↦ rfl⟩

theorem trans (h : Later touched tree later) (h' : Later touched' later third) :
    Later (fun l ↦ touched l ∨ touched' l) tree third where
  workingDirectory := h'.workingDirectory.trans h.workingDirectory
  directory l hl := h'.directory l (h.directory l hl)
  isSome l hl := h'.isSome l (h.isSome l hl)
  fileAt l hl := (h'.fileAt l fun ht ↦ hl (.inr ht)).trans (h.fileAt l fun ht ↦ hl (.inl ht))

theorem mono (h : Later touched tree later) (hsub : ∀ l, touched l → touched' l) :
    Later touched' tree later :=
  ⟨h.workingDirectory, h.directory, h.isSome, fun l hl ↦ h.fileAt l fun ht ↦ hl (hsub l ht)⟩

theorem start_eq (h : Later touched tree later) (p : Path) : later.start p = tree.start p := by
  rw [start, start, h.workingDirectory]

theorem step (h : Later touched tree later) (hs : tree.step a s = .ok b) :
    later.step a s = .ok b := by
  obtain ⟨hdir, hcase⟩ := step_eq_ok_iff.1 hs
  refine step_eq_ok_iff.2 ⟨h.directory a hdir, ?_⟩
  rcases hcase with hcase | hcase | ⟨hname, hsome, hb⟩
  · exact .inl hcase
  · exact .inr (.inl hcase)
  · exact .inr (.inr ⟨hname, h.isSome b hsome, hb⟩)

theorem walk (h : Later touched tree later) (hw : tree.walk a segments = .ok b) :
    later.walk a segments = .ok b := by
  induction segments generalizing a with
  | nil => exact hw
  | cons s segments ih =>
    rw [walk_cons, Except.bind_eq_ok_iff] at hw ⊢
    obtain ⟨m, hs, hw⟩ := hw
    exact ⟨m, h.step hs, ih hw⟩

theorem walk_start (h : Later touched tree later) (hw : tree.walk (tree.start p) segments = .ok b) :
    later.walk (later.start p) segments = .ok b := by
  rw [h.start_eq]
  exact h.walk hw

theorem isSlot (h : Later touched tree later) (hslot : IsSlot tree p directory name) :
    IsSlot later p directory name := by
  obtain ⟨⟨front, hseg, hw⟩, hdir⟩ := hslot
  exact ⟨⟨front, hseg, h.walk_start hw⟩, h.directory _ hdir⟩

theorem file? (h : Later touched tree later) (hfile : tree.file? p = some (l, content))
    (hl : ¬touched l) : later.file? p = some (l, content) := by
  obtain ⟨hadm, hw, hc⟩ := file?_eq_some_iff.1 hfile
  exact file?_eq_some_iff.2 ⟨hadm, h.walk_start hw, by rw [h.fileAt l hl, hc]⟩

end Later

theorem slot_eq_ok (h : tree.slot p = .ok (directory, children, name)) :
    IsSlot tree p directory name ∧ isAdmissible p = true ∧
      tree.root.find? directory = some (.directory children) := by
  obtain ⟨front, last, hseg⟩ := p.exists_segments_eq_append
  by_cases hadm : isAdmissible p = true
  · cases hw : front.foldlM tree.step (tree.start p) with
    | error fault => simp [slot, hseg, hadm, hw, bind, Except.bind] at h
    | ok place =>
      rcases hfind : tree.root.find? place with _ | ⟨c⟩ | ⟨there⟩
      · simp [slot, hseg, hadm, hw, hfind, bind, Except.bind, throw, throwThe,
          MonadExceptOf.throw] at h
      · simp [slot, hseg, hadm, hw, hfind, bind, Except.bind, throw, throwThe,
          MonadExceptOf.throw] at h
      · simp [slot, hseg, hadm, hw, hfind, bind, Except.bind, pure, Except.pure] at h
        obtain ⟨rfl, rfl, rfl⟩ := h
        exact ⟨⟨⟨front, hseg, hw⟩, occupant?_eq_directory_iff.2 ⟨there, hfind⟩⟩, hadm, hfind⟩
  · simp [slot, hseg, hadm, bind, Except.bind, throw, throwThe, MonadExceptOf.throw] at h

theorem later_set {new : Node} (hdir : tree.occupant? directory = some none)
    (hfree : tree.occupant? (directory ++ [name]) ≠ some none)
    (hnew : ∀ s l, new.find? (s :: l) = none) :
    Later (· = directory ++ [name]) tree (tree.set (directory ++ [name]) new) := by
  have hentry := occupant?_set_of_leaf hdir hfree hnew
  refine ⟨rfl, fun l hl ↦ ?_, fun l hl ↦ ?_, fun l hl ↦ ?_⟩
  · rwa [hentry, if_neg]
    rintro rfl
    exact hfree hl
  · rw [hentry]
    split
    · rfl
    · exact hl
  · apply fileAt_eq_of_occupant?_eq
    rw [hentry, if_neg hl]

theorem makeDirectory_eq_ok (h : tree.makeDirectory p = .ok later) :
    ∃ directory name, IsSlot tree p directory name ∧ isName name = true ∧
      tree.occupant? (directory ++ [name]) = none ∧
      later = tree.set (directory ++ [name]) (.directory []) := by
  unfold makeDirectory at h
  obtain ⟨⟨directory, children, name⟩, hslot, h⟩ := Except.bind_eq_ok_iff.1 h
  simp only at h
  split at h
  · rename_i hfree
    obtain ⟨hslot, -, hfind⟩ := slot_eq_ok hslot
    simp only [Bool.and_eq_true] at hfree
    obtain ⟨⟨hname, -⟩, hlookup⟩ := hfree
    refine ⟨directory, name, hslot, hname, ?_, (Except.ok.inj h).symm⟩
    rw [occupant?_child hfind, Option.isNone_iff_eq_none.1 hlookup, Option.map_none]
  · cases h

theorem occupant?_made (hdir : tree.occupant? directory = some none)
    (hnone : tree.occupant? (directory ++ [name]) = none) (l : Location) :
    (tree.set (directory ++ [name]) (.directory [])).occupant? l =
      if l = directory ++ [name] then some none else tree.occupant? l :=
  occupant?_set_of_leaf hdir (by rw [hnone]; exact nofun) (fun _ _ ↦ rfl) l

theorem later_makeDirectory (h : tree.makeDirectory p = .ok later) :
    Later (fun _ ↦ False) tree later := by
  obtain ⟨directory, name, ⟨-, hdir⟩, -, hnone, rfl⟩ := makeDirectory_eq_ok h
  have hfree : tree.occupant? (directory ++ [name]) ≠ some none := by
    rw [hnone]
    exact nofun
  have hleaf : ∀ s l, (Node.directory []).find? (s :: l) = none := fun _ _ ↦ rfl
  have hset := later_set hdir hfree hleaf
  refine ⟨rfl, hset.directory, hset.isSome, fun l _ ↦ ?_⟩
  by_cases hl : l = directory ++ [name]
  · -- There was no file before, and there is none now.
    refine Option.ext fun content ↦ ?_
    rw [← occupant?_eq_file_iff, ← occupant?_eq_file_iff, occupant?_made hdir hnone, if_pos hl, hl,
      hnone]
    simp
  · exact hset.fileAt l hl

variable (tree p) in
/-- How the first of some paths is made, and how the others behind it if they have to come first. -/
inductive Makes (above : List Path) : FileTree × Bool → Prop
  | made {made : FileTree} (h : tree.makeDirectory p = .ok made) : Makes above (made, true)
  | refused {fault : PathFault} (h : tree.makeDirectory p = .error fault) :
    Makes above (tree, tree.isDirectory p)
  | failed {between : FileTree} (habove : tree.makeDirectories above = (between, false)) :
    Makes above (between, false)
  | madeAfter {between made : FileTree} (habove : tree.makeDirectories above = (between, true))
    (h : between.makeDirectory p = .ok made) : Makes above (made, true)
  | refusedAfter {between : FileTree} {fault : PathFault}
    (habove : tree.makeDirectories above = (between, true))
    (h : between.makeDirectory p = .error fault) : Makes above (between, between.isDirectory p)

theorem makes_cons (tree : FileTree) (p : Path) (above : List Path) :
    Makes tree p above (tree.makeDirectories (p :: above)) := by
  rw [makeDirectories]
  split
  · exact .made ‹_›
  · split
    · exact .failed ‹_›
    · split
      · exact .madeAfter ‹_› ‹_›
      · exact .refusedAfter ‹_› ‹_›
  · exact .refused ‹_›

theorem later_makeDirectories (tree : FileTree) (paths : List Path) :
    Later (fun _ ↦ False) tree (tree.makeDirectories paths).1 := by
  induction paths with
  | nil => exact .refl _ tree
  | cons p above ih =>
    have hmakes := makes_cons tree p above
    generalize tree.makeDirectories (p :: above) = result at hmakes
    cases hmakes with
    | made h => exact later_makeDirectory h
    | refused h => exact .refl _ tree
    | failed habove =>
      rw [habove] at ih
      exact ih
    | madeAfter habove h =>
      rw [habove] at ih
      exact (ih.trans (later_makeDirectory h)).mono fun _ hl ↦ hl.elim id id
    | refusedAfter habove h =>
      rw [habove] at ih
      exact ih

theorem exists_set_of_place (h : tree.place p content = some later) :
    ∃ directory name, IsSlot tree p directory name ∧ isName name = true ∧ isAdmissible p = true ∧
      tree.occupant? (directory ++ [name]) ≠ some none ∧
      later = tree.set (directory ++ [name]) (.file content) := by
  have hplace := h
  unfold place at h
  split at h
  · cases h
  · rename_i directory children name hslot
    obtain ⟨hslot, hadm, -⟩ := slot_eq_ok hslot
    rw [hslot.place_eq] at hplace
    split at hplace
    · rename_i hplaceable
      obtain ⟨-, -, hname, -, hfree⟩ := isPlaceable_iff.1 hplaceable
      exact ⟨directory, name, hslot, hname, hadm, hfree, (Option.some.inj hplace).symm⟩
    · cases hplace

/-- What a path must be for a file to be placed at it, and what becomes of the tree then. -/
theorem place_eq_some (h : tree.place p content = some later) :
    ∃ directory name, IsSlot tree p directory name ∧ isName name = true ∧ isAdmissible p = true ∧
      later.fileAt (directory ++ [name]) = some content ∧
      Later (· = directory ++ [name]) tree later := by
  obtain ⟨directory, name, hslot, hname, hadm, hfree, rfl⟩ := exists_set_of_place h
  refine ⟨directory, name, hslot, hname, hadm, ?_, later_set hslot.isDirectory hfree fun _ _ ↦ rfl⟩
  rw [← occupant?_eq_file_iff, occupant?_set hslot.isDirectory hfree, if_pos rfl]

end PairedSource.FileTree
