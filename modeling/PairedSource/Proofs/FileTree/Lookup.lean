import PairedSource.InputFile
import PairedSource.Proofs.FileTree.Walk

namespace PairedSource.FileTree

variable (tree : FileTree)

def fileAt (location : Location) : Option ByteArray :=
  match tree.root.find? location with
  | some (.file content) => some content
  | _ => none

def fileAlong (start : Location) (segments : List String) : Option (Location × ByteArray) :=
  (tree.walk start segments).toOption.bind fun location ↦ (tree.fileAt location).map (location, ·)

/-- The regular file that a path means in a directory. How the directory is spelled does not
matter here, and neither does the length of the whole path. -/
def fileFrom (directory : Location) (target : Path) : Option (Location × ByteArray) :=
  if '\x00' ∈ target.text.toList then none
  else tree.fileAlong (if target.isAbsolute then [] else directory) target.segments

variable {tree} {p q : Path} {a l : Location} {c : ByteArray} {segments : List String}

theorem fileAt_eq_some_iff :
    tree.fileAt l = some c ↔ tree.root.find? l = some (.file c) := by
  unfold fileAt
  split <;> simp_all

theorem file?_eq_some_iff_locate :
    tree.file? p = some (l, c) ↔ tree.locate p = .ok l ∧ tree.fileAt l = some c := by
  constructor
  · intro h
    simp only [file?] at h
    split at h
    · cases h
    · rename_i place hlocate
      split at h
      · rename_i content hfind
        obtain ⟨rfl, rfl⟩ := Prod.mk.inj (Option.some.inj h)
        exact ⟨hlocate, fileAt_eq_some_iff.2 hfind⟩
      · cases h
  · intro h
    obtain ⟨hlocate, hcontent⟩ := h
    simp only [file?, hlocate, fileAt_eq_some_iff.1 hcontent]

theorem fileAlong_eq_some_iff : tree.fileAlong a segments = some (l, c) ↔
    tree.walk a segments = .ok l ∧ tree.fileAt l = some c := by
  simp only [fileAlong, Option.bind_eq_some_iff, Except.toOption_eq_some_iff,
    Option.map_eq_some_iff, Prod.mk.injEq]
  constructor
  · intro h
    obtain ⟨_, hw, _, hc, rfl, rfl⟩ := h
    exact ⟨hw, hc⟩
  · intro h
    obtain ⟨hw, hc⟩ := h
    exact ⟨l, hw, c, hc, rfl, rfl⟩

theorem isFile_eq : tree.isFile p = (tree.file? p).isSome := by
  unfold isFile node? file?
  cases tree.locate p with
  | error e => rfl
  | ok l =>
    rcases h : tree.root.find? l with _ | ⟨content⟩ | ⟨children⟩
    · simp [h]
    · simp [h, Node.isFile]
    · simp [h, Node.isFile]

theorem isDirectory_eq_false_of_isFile (h : tree.isFile p = true) : tree.isDirectory p = false := by
  unfold isFile at h
  unfold isDirectory
  rcases hnode : tree.node? p with _ | ⟨content⟩ | ⟨children⟩
  · rfl
  · rfl
  · rw [hnode] at h
    cases h

theorem isAdmissible_iff : isAdmissible p = true ↔
    p.text.utf8ByteSize ≤ maxPathLength ∧ '\x00' ∉ p.text.toList := by
  simp [isAdmissible]

theorem file?_eq :
    tree.file? p = if isAdmissible p then tree.fileAlong (tree.start p) p.segments else none := by
  have hnone : p.text = "" → tree.fileAlong (tree.start p) p.segments = none := by
    intro hp
    have hseg : p.segments = [""] := by simp [Path.segments, hp, Text.split, Text.pieces]
    rw [hseg, Option.eq_none_iff_forall_ne_some]
    rintro ⟨l, c⟩ h
    obtain ⟨hw, hc⟩ := fileAlong_eq_some_iff.1 h
    obtain ⟨children, hdir, hcase⟩ := step_eq_ok (walk_singleton ▸ hw)
    have hl : l = tree.start p := by simpa [isName] using hcase
    rw [fileAt_eq_some_iff, hl, hdir] at hc
    cases hc
  by_cases hp : p.text = ""
  · rw [hnone hp, ite_self]
    simp [file?, locate, hp]
  · by_cases ha : isAdmissible p = true
    · simp only [file?, locate, String.isEmpty_iff, hp, ha, Bool.not_true, if_true, fileAlong,
        walk, fileAt, Bool.false_eq_true, if_false]
      cases p.segments.foldlM tree.step (tree.start p) with
      | error => rfl
      | ok l =>
        simp only [Except.toOption, Option.bind_some]
        split <;> simp_all
    · simp [file?, locate, hp, ha]

theorem file?_eq_some_iff : tree.file? p = some (l, c) ↔
    isAdmissible p = true ∧ tree.walk (tree.start p) p.segments = .ok l ∧
      tree.fileAt l = some c := by
  rw [file?_eq]
  by_cases h : isAdmissible p = true <;> simp [h, fileAlong_eq_some_iff]

theorem isDirectory_iff : tree.isDirectory p = true ↔
    p.text ≠ "" ∧ isAdmissible p = true ∧
      ∃ l children, tree.walk (tree.start p) p.segments = .ok l ∧
        tree.root.find? l = some (.directory children) := by
  by_cases hp : p.text = ""
  · simp [isDirectory, node?, locate, hp]
  · by_cases ha : isAdmissible p = true
    · simp only [isDirectory, node?, locate, String.isEmpty_iff, hp, ha, if_false, Bool.not_true,
        Bool.false_eq_true, walk]
      cases p.segments.foldlM tree.step (tree.start p) with
      | error => simp
      | ok l =>
        rcases hf : tree.root.find? l with _ | ⟨content⟩ | ⟨children⟩
        · simp [hf]
        · simp [hf, Node.isDirectory]
        · simp [hf, hp, Node.isDirectory]
    · simp [isDirectory, node?, locate, hp, ha]

theorem walk_join (h : q.isAbsolute = false) :
    tree.walk (tree.start (p.join q)) (p.join q).segments =
      tree.walk (tree.start p) p.segments >>= (tree.walk · q.segments) := by
  have hstart : tree.start (p.join q) = tree.start p := by
    simp only [start, Path.isAbsolute_join h]
  rw [hstart]
  rcases Path.segments_join (p := p) h with hj | ⟨front, hp, hj⟩
  · rw [hj, walk_append]
  · obtain ⟨s, rest, hq⟩ := List.exists_cons_of_ne_nil q.segments_ne_nil
    rw [hj, hp, hq, walk_append, walk_append, bind_assoc]
    simp only [walk_idle_bind]

theorem walk_dropIdle {l : List String} {b : Location} (h : tree.walk a l.reverse = .ok b) :
    tree.walk a (Path.dropIdle l).reverse = .ok b := by
  fun_induction Path.dropIdle l with
  | case1 s t rest hs ih =>
    refine ih ?_
    rw [List.reverse_cons, walk_append, Except.bind_eq_ok_iff] at h
    obtain ⟨c, hc, hb⟩ := h
    obtain ⟨children, hdir, -⟩ := step_eq_ok (walk_singleton ▸ hb)
    rw [walk_singleton, step_idle hdir hs, Except.ok.injEq] at hb
    exact hb ▸ hc
  | case2 => exact h
  | case3 => exact h

section Front

variable {front : List String} {s : String} {children : List (String × Node)}

theorem walk_front (h : p.segments = front ++ [s]) (hw : tree.walk (tree.start p) front = .ok a)
    (hdir : tree.root.find? a = some (.directory children)) :
    let d := Path.ofReversed (Path.dropIdle front.reverse)
    tree.walk (tree.start d) d.segments = .ok a := by
  intro d
  have hslash : ∀ t ∈ Path.dropIdle front.reverse, '/' ∉ t.toList := by
    intro t ht
    have hmem := (Path.dropIdle_suffix _).subset ht
    exact Path.slash_notMem_of_mem_segments (p := p) (by simp_all)
  have hstart : tree.start d = tree.start p := by
    by_cases hfront : front = []
    · have hp : p.isAbsolute = false := by
        rw [Bool.eq_false_iff, ne_eq, Path.isAbsolute_iff]
        intro h
        obtain ⟨t, rest, ht⟩ := h
        simp [h, hfront] at ht
      have hd : d.isAbsolute = false := by
        simp only [d, hfront]
        rfl
      simp [start, hp, hd]
    · simp only [start, d, Path.isAbsolute_ofReversed h hfront (by simp)]
  have hidle : tree.walk (tree.start d) (Path.dropIdle front.reverse).reverse = .ok a := by
    rw [hstart]
    exact walk_dropIdle (by simpa using hw)
  rcases Path.segments_ofReversed hslash with hseg | hseg
  · rw [hseg, hidle]
  · rw [hseg, walk_append, hidle]
    exact (walk_singleton).trans (step_idle hdir (.inl rfl))

end Front

theorem exists_parent_of_file? (h : tree.file? p = some (l, c)) :
    ∃ d, p.parent? = some d ∧ '\x00' ∉ d.text.toList ∧
      tree.walk (tree.start d) d.segments = .ok l.dropLast := by
  obtain ⟨hadm, hw, hc⟩ := file?_eq_some_iff.1 h
  obtain ⟨front, s, hseg⟩ := p.exists_segments_eq_append
  obtain ⟨a, children, hfront, hdir, hname, rfl⟩ :=
    walk_file (hseg ▸ hw) (fileAt_eq_some_iff.1 hc)
  have hs := isName_iff.1 hname
  refine ⟨_, Path.parent?_eq hseg hs.1 hs.2.1, fun hmem ↦ ?_, ?_⟩
  · obtain ⟨tail, htail⟩ := Path.exists_text_eq_ofReversed_append hseg (by simp)
    exact (isAdmissible_iff.1 hadm).2 (by rw [htail]; simp [hmem])
  · rw [List.dropLast_concat]
    exact walk_front hseg hfront hdir

/-- An include is found as it is from the directory of the file that names it, however that file
was reached, as long as the joined path is not too long. -/
theorem file?_relative {source : SourceText} {target : String}
    (h : tree.file? source.path = some (l, c))
    (hlen : (source.relative target).text.utf8ByteSize ≤ maxPathLength) :
    tree.file? (source.relative target) = tree.fileFrom l.dropLast ⟨target⟩ := by
  obtain ⟨d, hparent, hnul, hd⟩ := exists_parent_of_file? h
  rw [SourceText.relative, hparent, Option.getD_some] at hlen ⊢
  rw [fileFrom, file?_eq]
  by_cases habs : (Path.mk target).isAbsolute = true
  · have hjoin : d.join ⟨target⟩ = ⟨target⟩ := by rw [Path.join, if_pos habs]
    rw [hjoin] at hlen ⊢
    have hadm : isAdmissible ⟨target⟩ = true ↔ '\x00' ∉ target.toList := by
      rw [isAdmissible_iff, and_iff_right hlen]
    by_cases hn : '\x00' ∈ target.toList <;> simp [hadm, hn, start, habs]
  · rw [Bool.not_eq_true] at habs
    have hadm : isAdmissible (d.join ⟨target⟩) = true ↔ '\x00' ∉ target.toList := by
      rw [isAdmissible_iff, and_iff_right hlen, Path.mem_text_join habs (by decide)]
      simp [hnul]
    have halong : tree.fileAlong (tree.start (d.join ⟨target⟩)) (d.join ⟨target⟩).segments =
        tree.fileAlong l.dropLast (Path.mk target).segments := by
      rw [fileAlong, walk_join habs, hd]
      rfl
    by_cases hn : '\x00' ∈ target.toList <;> simp [hadm, hn, habs, halong]

end PairedSource.FileTree
