import PairedSource.Proofs.FileTree.Agree
import PairedSource.Proofs.Path.Ancestors

namespace PairedSource

namespace Node

variable {node : Node} {a : Location} {children : List (String × Node)} {name : String}

/-- Putting something with nothing below it into a directory changes nothing at any other place, as
long as no directory is replaced. -/
theorem find?_set_directory {new : Node} (h : node.find? a = some (.directory children))
    (hname : children.lookup name = none ∨
      ∃ old, children.lookup name = some (.file old))
    (hnew : ∀ s l, new.find? (s :: l) = none) (l : Location) :
    ((node.set (a ++ [name]) new).find? l).map content? =
      if l = a ++ [name] then some new.content? else (node.find? l).map content? := by
  induction a generalizing node l with
  | nil =>
    obtain rfl : node = .directory children := by simpa [find?] using h
    rw [List.nil_append, set]
    cases l with
    | nil => simp [find?, content?]
    | cons s l =>
      by_cases hs : s = name
      · subst hs
        rw [find?, Association.lookup_alter_self]
        cases l with
        | nil => simp [find?]
        | cons t l => rcases hname with h | ⟨old, h⟩ <;> simp [find?, h, hnew]
      · rw [find?, Association.lookup_alter_of_ne hs, if_neg (by simp [hs])]
        rfl
  | cons t a ih =>
    cases node with
    | file content => simp [find?] at h
    | directory others =>
      cases hchild : others.lookup t with
      | none => simp [find?, hchild] at h
      | some child =>
        have hfind : child.find? a = some (.directory children) := by
          simpa [find?, hchild] using h
        obtain ⟨s, rest, hrest⟩ := List.exists_cons_of_ne_nil (l := a ++ [name]) (by simp)
        have hset : (Node.directory others).set (t :: (a ++ [name])) new =
            .directory (Association.alter t (fun _ ↦ child.set (a ++ [name]) new) others) := by
          rw [hrest, set, hchild]
          simp
        rw [List.cons_append, hset]
        cases l with
        | nil => simp [find?, content?]
        | cons u l =>
          by_cases hu : u = t
          · subst hu
            rw [find?, Association.lookup_alter_self, find?, hchild]
            simpa using ih hfind l
          · rw [find?, Association.lookup_alter_of_ne hu, if_neg (by simp [hu]), find?]

end Node

namespace FileTree

variable {tree other : FileTree} {scope : Location → Prop} {p : Path} {directory l : Location}
  {name : String}

theorem occupant?_set_of_leaf {new : Node} (hdir : tree.occupant? directory = some none)
    (hname : tree.occupant? (directory ++ [name]) ≠ some none)
    (hnew : ∀ s l, new.find? (s :: l) = none) (l : Location) :
    (tree.set (directory ++ [name]) new).occupant? l =
      if l = directory ++ [name] then some new.content? else tree.occupant? l := by
  obtain ⟨children, hdir⟩ := occupant?_eq_directory_iff.1 hdir
  refine Node.find?_set_directory hdir ?_ hnew l
  rw [occupant?_child hdir] at hname
  rcases h : children.lookup name with _ | ⟨old⟩ | ⟨below⟩
  · exact .inl rfl
  · exact .inr ⟨old, rfl⟩
  · simp [h, Node.content?] at hname

theorem occupant?_set (hdir : tree.occupant? directory = some none)
    (hname : tree.occupant? (directory ++ [name]) ≠ some none) (content : ByteArray)
    (l : Location) : (tree.set (directory ++ [name]) (.file content)).occupant? l =
      if l = directory ++ [name] then some (some content) else tree.occupant? l :=
  occupant?_set_of_leaf hdir hname (fun _ _ ↦ rfl) l

variable (tree p directory) in
def isPlaceable (name : String) : Bool :=
  isAdmissible p && isAdmissible (tree.temporary p) && isName name && isStorable name &&
    (tree.occupant? (directory ++ [name])).all Option.isSome

theorem occupant?_all_isSome_iff :
    (tree.occupant? l).all Option.isSome = true ↔ tree.occupant? l ≠ some none := by
  rcases tree.occupant? l with _ | _ | content <;> simp

theorem isPlaceable_iff : tree.isPlaceable p directory name = true ↔
    isAdmissible p = true ∧ isAdmissible (tree.temporary p) = true ∧ isName name = true ∧
      isStorable name = true ∧ tree.occupant? (directory ++ [name]) ≠ some none := by
  simp only [isPlaceable, Bool.and_eq_true, occupant?_all_isSome_iff, and_assoc]

theorem Agree.isPlaceable_eq (h : Agree scope tree other) :
    tree.isPlaceable p directory name = other.isPlaceable p directory name := by
  rw [Bool.eq_iff_iff, isPlaceable_iff, isPlaceable_iff, temporary, temporary,
    h.workingDirectory, ne_eq, ne_eq, h.directory]

theorem IsSlot.slot_eq (h : IsSlot tree p directory name) (hadm : isAdmissible p = true) :
    ∃ children, tree.root.find? directory = some (.directory children) ∧
      tree.slot p = .ok (directory, children, name) := by
  obtain ⟨⟨front, hseg, hw⟩, hdir⟩ := h
  obtain ⟨children, hdir⟩ := occupant?_eq_directory_iff.1 hdir
  refine ⟨children, hdir, ?_⟩
  have hw' : front.foldlM tree.step (tree.start p) = .ok directory := hw
  simp [slot, hseg, hadm, hw', hdir, bind, Except.bind, pure, Except.pure]

/-- Placing a file needs nothing but a good name that no directory has. -/
theorem IsSlot.place_eq (h : IsSlot tree p directory name) (content : ByteArray) :
    tree.place p content =
      if tree.isPlaceable p directory name = true then
        some (tree.set (directory ++ [name]) (.file content))
      else none := by
  by_cases hadm : isAdmissible p = true
  · obtain ⟨children, hdir, hslot⟩ := h.slot_eq hadm
    have hfree : (!(children.lookup name).any Node.isDirectory) =
        (tree.occupant? (directory ++ [name])).all Option.isSome := by
      rw [occupant?_child hdir]
      rcases children.lookup name with _ | ⟨content⟩ | ⟨below⟩
      · rfl
      · rfl
      · rfl
    simp only [place, hslot, isPlaceable, hadm, hfree, Bool.true_and]
  · obtain ⟨front, hseg, -⟩ := h.front
    have hslot : tree.slot p = .error .unavailable := by
      simp [slot, hseg, hadm, bind, Except.bind, throw, throwThe, MonadExceptOf.throw]
    simp [place, hslot, isPlaceable, hadm]

theorem isSlot_join {q : Path} (hw : tree.walk (tree.start q) q.segments = .ok directory)
    (hdir : tree.occupant? directory = some none) (hslash : '/' ∉ name.toList) :
    IsSlot tree (q.join ⟨name⟩) directory name := by
  have hstart : tree.start (q.join ⟨name⟩) = tree.start q := by
    simp only [start, Path.isAbsolute_join (Path.isAbsolute_mk hslash)]
  refine ⟨?_, hdir⟩
  rcases Path.segments_join_mk hslash q with hj | ⟨front, hq, hj⟩
  · exact ⟨q.segments, hj, hstart ▸ hw⟩
  · refine ⟨front, hj, ?_⟩
    rw [hq, walk_append, Except.bind_eq_ok_iff] at hw
    obtain ⟨m, hm, hs⟩ := hw
    obtain ⟨-, hcase⟩ := step_eq_ok_iff.1 (walk_singleton ▸ hs)
    obtain rfl : directory = m := by simpa [isName] using hcase
    rwa [hstart]

theorem makeDirectory_of_walk (hw : tree.walk (tree.start p) p.segments = .ok directory) :
    tree.makeDirectory p = .error .unavailable := by
  obtain ⟨front, last, hseg⟩ := p.exists_segments_eq_append
  by_cases hadm : isAdmissible p = true
  · rw [hseg, walk_append, Except.bind_eq_ok_iff] at hw
    obtain ⟨m, hm, hs⟩ := hw
    obtain ⟨hmdir, hcase⟩ := step_eq_ok_iff.1 (walk_singleton ▸ hs)
    have hslot : IsSlot tree p m last := ⟨⟨front, hseg, hm⟩, hmdir⟩
    obtain ⟨children, hchildren, hslot⟩ := hslot.slot_eq hadm
    have hthere : isName last = true → (children.lookup last).isSome = true := by
      intro hname
      have hlast := isName_iff.1 hname
      rcases hcase with ⟨hidle, -⟩ | ⟨hup, -⟩ | ⟨-, hsome, rfl⟩
      · exact absurd hidle (not_or.2 ⟨hlast.1, hlast.2.1⟩)
      · exact absurd hup hlast.2.2
      · simpa [occupant?_child hchildren] using hsome
    have hrefused : (isName last && isStorable last && (children.lookup last).isNone) = false := by
      by_cases hname : isName last = true
      · have := hthere hname
        cases hl : children.lookup last <;> simp_all
      · simp [hname]
    simp [makeDirectory, hslot, hrefused, bind, Except.bind, throw, throwThe,
      MonadExceptOf.throw]
  · have hslot : tree.slot p = .error .unavailable := by
      simp [slot, hseg, hadm, bind, Except.bind, throw, throwThe, MonadExceptOf.throw]
    simp [makeDirectory, hslot, bind, Except.bind]

theorem directoryFor_of_parent? {d : Path} (h : p.parent? = some d) :
    directoryFor p = if d.text = "" then ⟨"."⟩ else d := by
  obtain ⟨text⟩ := d
  unfold directoryFor
  rw [h]
  by_cases ht : text = ""
  · simp [ht]
  · simp only [ht, if_false]
    split <;> simp_all

theorem isAdmissible_of_isUpper {l : List String} (h : p.IsUpper l) (hadm : isAdmissible p = true) :
    isAdmissible (Path.ofReversed l) = true := by
  obtain ⟨tail, htail⟩ := h.exists_text_eq_append
  obtain ⟨hsize, hnul⟩ := isAdmissible_iff.1 hadm
  rw [htail, String.utf8ByteSize_append] at hsize
  rw [htail, String.toList_append, List.mem_append, not_or] at hnul
  exact isAdmissible_iff.2 ⟨Nat.le_trans (Nat.le_add_right _ _) hsize, hnul.1⟩

namespace IsSlot

variable (h : IsSlot tree p directory name) (hname : isName name = true)

include h hname

theorem directoryFor_eq :
    tree.walk (tree.start (directoryFor p)) (directoryFor p).segments = .ok directory ∧
      ((directoryFor p).ancestors = [] ∨
        ∃ above, (directoryFor p).ancestors = directoryFor p :: above) := by
  obtain ⟨⟨front, hseg, hw⟩, hdir⟩ := h
  obtain ⟨children, hchildren⟩ := occupant?_eq_directory_iff.1 hdir
  have hn := isName_iff.1 hname
  have hparent := Path.parent?_eq hseg hn.1 hn.2.1
  have hwalk := walk_front hseg hw hchildren
  have hupper := Path.IsUpper.dropIdle_reverse hseg (List.cons_ne_nil name [])
  rw [directoryFor_of_parent? hparent]
  split
  · rename_i hempty
    -- The empty path stands for the directory that a dot leads to as well.
    have hd : Path.ofReversed (Path.dropIdle front.reverse) = ⟨""⟩ := by
      rw [← hempty]
    rw [hd] at hwalk
    have hdot : tree.step (tree.start ⟨""⟩) "" = .ok directory := by
      rw [← walk_singleton]
      exact hwalk
    obtain ⟨hroot, hcase⟩ := step_eq_ok_iff.1 hdot
    obtain rfl : directory = tree.start ⟨""⟩ := by simpa [isName] using hcase
    refine ⟨?_, Path.ancestorsOf_eq ["."]⟩
    change tree.walk (tree.start ⟨"."⟩) ["."] = _
    rw [walk_singleton]
    exact step_eq_ok_iff.2 ⟨hroot, .inl ⟨.inr rfl, rfl⟩⟩
  · rename_i hne
    have hl : Path.dropIdle front.reverse ≠ [] := by
      intro hl
      rw [hl] at hne
      exact hne rfl
    refine ⟨hwalk, ?_⟩
    rw [Path.ancestors_ofReversed hupper.slash_notMem hupper.dropIdle hl]
    exact Path.ancestorsOf_eq _

theorem makeDirectories_eq : tree.makeDirectories (directoryFor p).ancestors =
    (tree, (directoryFor p).ancestors.isEmpty || tree.isDirectory (directoryFor p)) := by
  obtain ⟨hw, hnil | ⟨above, hcons⟩⟩ := h.directoryFor_eq hname
  · rw [hnil]
    rfl
  · rw [hcons]
    simp [makeDirectories, makeDirectory_of_walk hw]

theorem isDirectory_directoryFor (hadm : isAdmissible p = true) :
    tree.isDirectory (directoryFor p) = true := by
  obtain ⟨hw, -⟩ := h.directoryFor_eq hname
  obtain ⟨children, hfind⟩ := occupant?_eq_directory_iff.1 h.isDirectory
  obtain ⟨front, hseg, -⟩ := h.front
  have hn := isName_iff.1 hname
  have hfor := directoryFor_of_parent? (Path.parent?_eq hseg hn.1 hn.2.1)
  suffices hspelled : (directoryFor p).text ≠ "" ∧ isAdmissible (directoryFor p) = true from
    isDirectory_iff.2 ⟨hspelled.1, hspelled.2, directory, children, hw, hfind⟩
  rw [hfor]
  split
  · decide
  · rename_i hne
    exact ⟨hne, isAdmissible_of_isUpper (.dropIdle_reverse hseg (List.cons_ne_nil name [])) hadm⟩

end IsSlot

end FileTree

end PairedSource
