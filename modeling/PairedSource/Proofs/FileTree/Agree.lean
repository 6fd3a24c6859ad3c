import PairedSource.FileTree.Changes
import PairedSource.Proofs.FileTree.Lookup

namespace PairedSource.FileTree

/-- What stands at a location: nothing, a directory, or a file with its content. -/
def occupant? (tree : FileTree) (location : Location) : Option (Option ByteArray) :=
  (tree.root.find? location).map Node.content?

/-- Two trees with the same entries. The order in which a directory lists them does not matter. -/
structure Same (tree other : FileTree) : Prop where
  workingDirectory : tree.workingDirectory = other.workingDirectory
  entry : ∀ location, tree.occupant? location = other.occupant? location

/-- Two trees with the same directories, and with the same entries within a scope. -/
structure Agree (scope : Location → Prop) (tree other : FileTree) : Prop where
  workingDirectory : tree.workingDirectory = other.workingDirectory
  directory : ∀ location, tree.occupant? location = some none ↔ other.occupant? location = some none
  entry : ∀ location, scope location → tree.occupant? location = other.occupant? location

variable {tree other third : FileTree} {scope scope' : Location → Prop} {a b l : Location}
  {s : String} {segments : List String} {p : Path} {c : ByteArray}

theorem occupant?_eq_directory_iff :
    tree.occupant? l = some none ↔ ∃ children, tree.root.find? l = some (.directory children) := by
  unfold occupant?
  rcases tree.root.find? l with _ | ⟨content⟩ | ⟨children⟩
  · simp
  · simp [Node.content?]
  · simp [Node.content?]

theorem occupant?_eq_file_iff : tree.occupant? l = some (some c) ↔ tree.fileAt l = some c := by
  unfold occupant? fileAt
  rcases tree.root.find? l with _ | ⟨content⟩ | ⟨children⟩
  · simp
  · simp [Node.content?]
  · simp [Node.content?]

theorem fileAt_eq_of_occupant?_eq (h : tree.occupant? l = other.occupant? l) :
    tree.fileAt l = other.fileAt l :=
  Option.ext fun c ↦ by rw [← occupant?_eq_file_iff, h, occupant?_eq_file_iff]

theorem occupant?_child {children : List (String × Node)}
    (h : tree.root.find? a = some (.directory children)) :
    tree.occupant? (a ++ [s]) = (children.lookup s).map Node.content? := by
  rw [occupant?, Node.find?_child h]

theorem step_eq_ok_iff : tree.step a s = .ok b ↔ tree.occupant? a = some none ∧
    ((s = "" ∨ s = ".") ∧ b = a ∨ s = ".." ∧ b = a.dropLast ∨
      isName s = true ∧ (tree.occupant? b).isSome = true ∧ b = a ++ [s]) := by
  constructor
  · intro h
    obtain ⟨children, hdir, hcase⟩ := step_eq_ok h
    refine ⟨occupant?_eq_directory_iff.2 ⟨children, hdir⟩, ?_⟩
    rcases hcase with h | h | ⟨hs, hl, rfl⟩
    · exact .inl h
    · exact .inr (.inl h)
    · exact .inr (.inr ⟨hs, by simpa [occupant?_child hdir] using hl, rfl⟩)
  · intro h
    obtain ⟨hdir, hcase⟩ := h
    obtain ⟨children, hdir⟩ := occupant?_eq_directory_iff.1 hdir
    rcases hcase with ⟨hs, rfl⟩ | ⟨rfl, rfl⟩ | ⟨hs, hb, rfl⟩
    · exact step_idle hdir hs
    · rw [step_of_directory hdir, if_neg (by decide), if_pos rfl]
    · rw [step_name hdir hs, if_pos (by simpa [occupant?_child hdir] using hb)]

namespace Agree

theorem refl (scope : Location → Prop) (tree : FileTree) : Agree scope tree tree :=
  ⟨rfl, fun _ ↦ Iff.rfl, fun _ _ ↦ rfl⟩

theorem symm (h : Agree scope tree other) : Agree scope other tree :=
  ⟨h.workingDirectory.symm, fun l ↦ (h.directory l).symm, fun l hl ↦ (h.entry l hl).symm⟩

theorem trans (h : Agree scope tree other) (h' : Agree scope other third) :
    Agree scope tree third :=
  ⟨h.workingDirectory.trans h'.workingDirectory, fun l ↦ (h.directory l).trans (h'.directory l),
    fun l hl ↦ (h.entry l hl).trans (h'.entry l hl)⟩

theorem mono (h : Agree scope tree other) (hsub : ∀ l, scope' l → scope l) :
    Agree scope' tree other :=
  ⟨h.workingDirectory, h.directory, fun l hl ↦ h.entry l (hsub l hl)⟩

theorem start_eq (h : Agree scope tree other) (p : Path) : tree.start p = other.start p := by
  rw [start, start, h.workingDirectory]

theorem step (h : Agree scope tree other) (hs : tree.step a s = .ok b)
    (hb : tree.occupant? b = some none ∨ scope b) : other.step a s = .ok b := by
  obtain ⟨hdir, hcase⟩ := step_eq_ok_iff.1 hs
  refine step_eq_ok_iff.2 ⟨(h.directory a).1 hdir, ?_⟩
  rcases hcase with hcase | hcase | ⟨hname, hsome, rfl⟩
  · exact .inl hcase
  · exact .inr (.inl hcase)
  · refine .inr (.inr ⟨hname, ?_, rfl⟩)
    rcases hb with hb | hb
    · rw [(h.directory _).1 hb]
      rfl
    · rwa [← h.entry _ hb]

theorem walk (h : Agree scope tree other) (hw : tree.walk a segments = .ok b)
    (hb : tree.occupant? b = some none ∨ segments ≠ [] ∧ scope b) :
    other.walk a segments = .ok b := by
  induction segments generalizing a with
  | nil => exact hw
  | cons s segments ih =>
    rw [walk_cons, Except.bind_eq_ok_iff] at hw ⊢
    obtain ⟨m, hs, hw⟩ := hw
    cases segments with
    | nil =>
      obtain rfl : m = b := by simpa [walk_nil] using hw
      exact ⟨m, h.step hs (hb.imp_right And.right), rfl⟩
    | cons t segments =>
      have hm : tree.occupant? m = some none := by
        rw [walk_cons, Except.bind_eq_ok_iff] at hw
        obtain ⟨_, ht, -⟩ := hw
        exact (step_eq_ok_iff.1 ht).1
      exact ⟨m, h.step hs (.inl hm), ih hw (hb.imp_right fun h ↦ ⟨by simp, h.2⟩)⟩

theorem isDirectory_eq (h : Agree scope tree other) (p : Path) :
    tree.isDirectory p = other.isDirectory p := by
  have himp : ∀ {tree other : FileTree}, Agree scope tree other →
      tree.isDirectory p = true → other.isDirectory p = true := by
    intro tree other h hdir
    rw [isDirectory_iff] at hdir ⊢
    obtain ⟨hne, hadm, l, children, hw, hl⟩ := hdir
    have hl := occupant?_eq_directory_iff.2 ⟨children, hl⟩
    obtain ⟨children', hl'⟩ := occupant?_eq_directory_iff.1 ((h.directory l).1 hl)
    exact ⟨hne, hadm, l, children', h.start_eq p ▸ h.walk hw (.inl hl), hl'⟩
  exact Bool.eq_iff_iff.2 ⟨himp h, himp h.symm⟩

end Agree

/-- Where the last segment of a path is looked up: in an existing directory. -/
structure IsSlot (tree : FileTree) (p : Path) (directory : Location) (name : String) : Prop where
  front : ∃ front, p.segments = front ++ [name] ∧ tree.walk (tree.start p) front = .ok directory
  isDirectory : tree.occupant? directory = some none

variable {directory : Location} {name : String}

theorem locate_eq_ok_iff : tree.locate p = .ok l ↔
    p.text ≠ "" ∧ isAdmissible p = true ∧ tree.walk (tree.start p) p.segments = .ok l := by
  unfold locate
  by_cases hp : p.text = ""
  · simp [hp]
  · by_cases ha : isAdmissible p = true
    · simp [hp, ha, walk]
    · simp [hp, ha]

theorem exists_isSlot_of_walk {front : List String} (hseg : p.segments = front ++ [name])
    (hname : isName name = true) (h : tree.walk (tree.start p) p.segments = .ok l) :
    ∃ directory, IsSlot tree p directory name ∧ l = directory ++ [name] := by
  have hw := h
  rw [hseg, walk_append, Except.bind_eq_ok_iff] at hw
  obtain ⟨m, hm, hs⟩ := hw
  obtain ⟨hdir, hcase⟩ := step_eq_ok_iff.1 (walk_singleton ▸ hs)
  refine ⟨m, ⟨⟨front, hseg, hm⟩, hdir⟩, ?_⟩
  have hs := isName_iff.1 hname
  rcases hcase with ⟨hidle, -⟩ | ⟨hup, -⟩ | ⟨-, -, hl⟩
  · exact absurd hidle (not_or.2 ⟨hs.1, hs.2.1⟩)
  · exact absurd hup hs.2.2
  · exact hl

theorem exists_isSlot_of_file? (h : tree.file? p = some (l, c)) :
    ∃ directory name, IsSlot tree p directory name ∧ isName name = true ∧
      l = directory ++ [name] := by
  obtain ⟨-, hw, hc⟩ := file?_eq_some_iff.1 h
  obtain ⟨front, name, hseg⟩ := p.exists_segments_eq_append
  obtain ⟨directory, children, -, -, hname, -⟩ := walk_file (hseg ▸ hw) (fileAt_eq_some_iff.1 hc)
  obtain ⟨directory, hslot, hl⟩ := exists_isSlot_of_walk hseg hname hw
  exact ⟨directory, name, hslot, hname, hl⟩

theorem Agree.isSlot (h : Agree scope tree other) (hslot : IsSlot tree p directory name) :
    IsSlot other p directory name := by
  obtain ⟨⟨front, hseg, hw⟩, hdir⟩ := hslot
  exact ⟨⟨front, hseg, h.start_eq p ▸ h.walk hw (.inl hdir)⟩, (h.directory _).1 hdir⟩

theorem IsSlot.unique {directory' : Location} {name' : String}
    (h : IsSlot tree p directory name) (h' : IsSlot tree p directory' name') :
    directory = directory' := by
  obtain ⟨front, hseg, hw⟩ := h.front
  obtain ⟨front', hseg', hw'⟩ := h'.front
  obtain rfl := (List.append_inj' (hseg.symm.trans hseg') rfl).1
  exact Except.ok.inj (hw.symm.trans hw')

theorem IsSlot.unique_name {directory' : Location} {name' : String}
    (h : IsSlot tree p directory name) (h' : IsSlot tree p directory' name') : name = name' := by
  obtain ⟨front, hseg, -⟩ := h.front
  obtain ⟨front', hseg', -⟩ := h'.front
  have hlast := (List.append_inj' (hseg.symm.trans hseg') rfl).2
  simpa using hlast

/-- A path that ends in a name and is looked up within a scope only. -/
def EndsWithin (scope : Location → Prop) (tree : FileTree) (p : Path) : Prop :=
  ∃ front name, p.segments = front ++ [name] ∧ isName name = true ∧
    ∀ directory, IsSlot tree p directory name → scope (directory ++ [name])

theorem EndsWithin.mono (h : EndsWithin scope tree p) (hsub : ∀ l, scope l → scope' l) :
    EndsWithin scope' tree p := by
  obtain ⟨front, name, hseg, hname, hscope⟩ := h
  exact ⟨front, name, hseg, hname, fun directory hslot ↦ hsub _ (hscope directory hslot)⟩

namespace Agree

theorem endsWithin (h : Agree scope' tree other) (hp : EndsWithin scope tree p) :
    EndsWithin scope other p := by
  obtain ⟨front, name, hseg, hname, hscope⟩ := hp
  exact ⟨front, name, hseg, hname, fun directory hslot ↦ hscope directory (h.symm.isSlot hslot)⟩

theorem locate_of_endsWithin (h : Agree scope tree other) (hp : EndsWithin scope tree p)
    (hl : tree.locate p = .ok l) : other.locate p = .ok l ∧ scope l := by
  obtain ⟨hne, hadm, hw⟩ := locate_eq_ok_iff.1 hl
  obtain ⟨front, name, hseg, hname, hscope⟩ := hp
  obtain ⟨directory, hslot, rfl⟩ := exists_isSlot_of_walk hseg hname hw
  have hin := hscope directory hslot
  exact ⟨locate_eq_ok_iff.2 ⟨hne, hadm,
    h.start_eq p ▸ h.walk hw (.inr ⟨p.segments_ne_nil, hin⟩)⟩, hin⟩

theorem toOption_locate_eq (h : Agree scope tree other) (hp : EndsWithin scope tree p) :
    (tree.locate p).toOption = (other.locate p).toOption := by
  refine Option.ext fun l ↦ ?_
  rw [Except.toOption_eq_some_iff, Except.toOption_eq_some_iff]
  exact ⟨fun hl ↦ (h.locate_of_endsWithin hp hl).1,
    fun hl ↦ (h.symm.locate_of_endsWithin (h.endsWithin hp) hl).1⟩

theorem file?_eq (h : Agree scope tree other) (hp : EndsWithin scope tree p) :
    tree.file? p = other.file? p := by
  have himp : ∀ {tree other : FileTree} {l : Location} {c : ByteArray}, Agree scope tree other →
      EndsWithin scope tree p → tree.file? p = some (l, c) → other.file? p = some (l, c) := by
    intro tree other l c h hp hfile
    obtain ⟨hadm, hw, hc⟩ := file?_eq_some_iff.1 hfile
    obtain ⟨front, name, hseg, hname, hscope⟩ := hp
    obtain ⟨directory, hslot, rfl⟩ := exists_isSlot_of_walk hseg hname hw
    have hin := hscope directory hslot
    rw [← occupant?_eq_file_iff, h.entry _ hin, occupant?_eq_file_iff] at hc
    exact file?_eq_some_iff.2
      ⟨hadm, h.start_eq p ▸ h.walk hw (.inr ⟨p.segments_ne_nil, hin⟩), hc⟩
  exact Option.ext fun ⟨l, c⟩ ↦ ⟨himp h hp, himp h.symm (h.endsWithin hp)⟩

end Agree

variable (tree) in
structure IsDirectoryAt (p : Path) (place : Location) : Prop where
  walk : tree.walk (tree.start p) p.segments = .ok place
  isDirectory : tree.occupant? place = some none

theorem exists_isDirectoryAt (h : tree.isDirectory p = true) :
    ∃ place, IsDirectoryAt tree p place := by
  obtain ⟨-, -, place, children, hwalk, hfind⟩ := isDirectory_iff.1 h
  exact ⟨place, hwalk, occupant?_eq_directory_iff.2 ⟨children, hfind⟩⟩

theorem IsDirectoryAt.unique (h : IsDirectoryAt tree p a) (h' : IsDirectoryAt tree p b) : a = b :=
  Except.ok.inj (h.walk.symm.trans h'.walk)

theorem Agree.isDirectoryAt (h : Agree scope tree other) (hplace : IsDirectoryAt tree p l) :
    IsDirectoryAt other p l :=
  ⟨h.start_eq p ▸ h.walk hplace.walk (.inl hplace.isDirectory),
    (h.directory l).1 hplace.isDirectory⟩

end PairedSource.FileTree
