import PairedSource.Proofs.Assembly.Placement
import PairedSource.Proofs.FileTree.Writing

namespace PairedSource

open FileTree

variable {tree : FileTree} {directory : Path} {place l : Location} {artifact : Artifact}
  {artifacts done rest : List Artifact} {next final other : FileTree} {outcome : WriteOutcome}

variable (tree directory place) in
/-- Whether an artifact is in its place or can be put there. -/
def canHold (artifact : Artifact) : Bool :=
  isAdmissible (artifact.pathIn directory) &&
      (tree.fileAt (place ++ [artifact.fileName])).any (·.data = artifact.content.toUTF8.data) ||
    tree.isPlaceable (artifact.pathIn directory) place artifact.fileName

variable (tree place artifacts final) in
/-- Some artifacts stand in a directory, and everything else is as it was. -/
structure Stocked : Prop where
  workingDirectory : final.workingDirectory = tree.workingDirectory
  holds : ∀ artifact ∈ artifacts,
    final.occupant? (place ++ [artifact.fileName]) = some (some artifact.content.toUTF8)
  other : ∀ l, (∀ artifact ∈ artifacts, l ≠ place ++ [artifact.fileName]) →
    final.occupant? l = tree.occupant? l

theorem canHold_iff : canHold tree directory place artifact = true ↔
    isAdmissible (artifact.pathIn directory) = true ∧
        tree.occupant? (place ++ [artifact.fileName]) = some (some artifact.content.toUTF8) ∨
      tree.isPlaceable (artifact.pathIn directory) place artifact.fileName = true := by
  simp only [canHold, Bool.or_eq_true, Bool.and_eq_true, occupant?_eq_file_iff, Option.any_eq_true,
    decide_eq_true_eq, ← ByteArray.ext_iff, exists_eq_right]

theorem isAdmissible_of_canHold (h : canHold tree directory place artifact = true) :
    isAdmissible (artifact.pathIn directory) = true := by
  rcases canHold_iff.1 h with ⟨hadm, -⟩ | hplace
  · exact hadm
  · exact (isPlaceable_iff.1 hplace).1

theorem occupant?_ne_of_canHold (h : canHold tree directory place artifact = true) :
    tree.occupant? (place ++ [artifact.fileName]) ≠ some none := by
  rcases canHold_iff.1 h with ⟨-, hthere⟩ | hplace
  · rw [hthere]
    exact nofun
  · exact (isPlaceable_iff.1 hplace).2.2.2.2

theorem canHold_congr (hroot : next.workingDirectory = tree.workingDirectory)
    (h : next.occupant? (place ++ [artifact.fileName]) =
      tree.occupant? (place ++ [artifact.fileName])) :
    canHold next directory place artifact = canHold tree directory place artifact := by
  simp only [canHold, isPlaceable, temporary, hroot, h, fileAt_eq_of_occupant?_eq h]

namespace Stocked

theorem refl (place : Location) (tree : FileTree) : Stocked tree place [] tree :=
  ⟨rfl, fun _ hmem ↦ absurd hmem List.not_mem_nil, fun _ _ ↦ rfl⟩

theorem cons (h : Stocked tree place [artifact] next) (hrest : Stocked next place rest final)
    (hnew : artifact.fileName ∉ rest.map Artifact.fileName) :
    Stocked tree place (artifact :: rest) final := by
  refine ⟨hrest.workingDirectory.trans h.workingDirectory, fun other hmem ↦ ?_, fun l hl ↦ ?_⟩
  · rcases List.mem_cons.1 hmem with rfl | hmem
    · rw [hrest.other, h.holds other List.mem_cons_self]
      intro later hlater heq
      refine hnew (List.mem_map.2 ⟨later, hlater, ?_⟩)
      simpa using heq.symm
    · exact hrest.holds other hmem
  · obtain ⟨hfirst, hl⟩ := List.forall_mem_cons.1 hl
    rw [hrest.other l hl, h.other l (List.forall_mem_singleton.2 hfirst)]

theorem same (h : Stocked tree place done next) (hsub : done ⊆ artifacts)
    (hnext : Stocked next place artifacts final) (htree : Stocked tree place artifacts other) :
    final.Same other := by
  refine ⟨?_, fun l ↦ ?_⟩
  · rw [hnext.workingDirectory, h.workingDirectory, htree.workingDirectory]
  · by_cases hl : ∃ artifact ∈ artifacts, l = place ++ [artifact.fileName]
    · obtain ⟨artifact, hmem, rfl⟩ := hl
      rw [hnext.holds artifact hmem, htree.holds artifact hmem]
    · have hnone : ∀ artifact ∈ artifacts, l ≠ place ++ [artifact.fileName] :=
        fun artifact hmem heq ↦ hl ⟨artifact, hmem, heq⟩
      rw [hnext.other l hnone, h.other l fun artifact hmem ↦ hnone artifact (hsub hmem),
        htree.other l hnone]

variable (h : Stocked tree place done next)
  (hdone : ∀ artifact ∈ done, canHold tree directory place artifact = true)

include h hdone

theorem agree :
    Agree (fun l ↦ ∀ artifact ∈ done, l ≠ place ++ [artifact.fileName]) next tree := by
  refine ⟨h.workingDirectory, fun l ↦ ?_, h.other⟩
  by_cases hl : ∃ artifact ∈ done, l = place ++ [artifact.fileName]
  · obtain ⟨artifact, hmem, rfl⟩ := hl
    rw [h.holds artifact hmem]
    exact iff_of_false nofun (occupant?_ne_of_canHold (hdone artifact hmem))
  · rw [h.other l fun artifact hmem heq ↦ hl ⟨artifact, hmem, heq⟩]

/-- What could be held before can be held afterwards, and nothing else, since a file of an artifact
goes only where that artifact can be put. -/
theorem canHold_eq : canHold next directory place = canHold tree directory place := by
  funext artifact
  by_cases hname : ∃ other ∈ done, other.fileName = artifact.fileName
  · obtain ⟨other, hmem, hname⟩ := hname
    rcases canHold_iff.1 (hdone other hmem) with ⟨-, hthere⟩ | hplace
    · exact canHold_congr h.workingDirectory (by rw [← hname, h.holds other hmem, hthere])
    · have hpath : other.pathIn directory = artifact.pathIn directory := by
        rw [Artifact.pathIn, Artifact.pathIn, hname]
      rw [hname, hpath] at hplace
      rw [canHold_iff.2 (.inr hplace),
        canHold_iff.2 (.inr ((h.agree hdone).isPlaceable_eq.trans hplace))]
  · refine canHold_congr h.workingDirectory (h.other _ fun other hmem heq ↦ hname ⟨other, hmem, ?_⟩)
    simpa using heq.symm

end Stocked

def WriteOutcome.upTo (outcome : WriteOutcome) (directory : Path) :
    Option Artifact → Except Error WriteOutcome
  | none => .ok outcome
  | some artifact =>
    .error (.writeFailure (artifact.pathIn directory) artifact.kind outcome.written)

namespace FileTree.IsDirectoryAt

variable (h : IsDirectoryAt tree directory place)

include h

theorem isSlot (hslash : '/' ∉ artifact.fileName.toList) :
    IsSlot tree (artifact.pathIn directory) place artifact.fileName :=
  isSlot_join h.walk h.isDirectory hslash

section Artifact

variable (hname : isName artifact.fileName = true) (hslash : '/' ∉ artifact.fileName.toList)

include hname hslash

theorem file?_eq_some_iff {content : ByteArray} :
    tree.file? (artifact.pathIn directory) = some (place ++ [artifact.fileName], content) ↔
      isAdmissible (artifact.pathIn directory) = true ∧
        tree.occupant? (place ++ [artifact.fileName]) = some (some content) := by
  rw [(h.isSlot hslash).file?_eq_some_iff hname, eq_self, true_and]

theorem write_eq (hdiffers : tree.file? (artifact.pathIn directory) ≠
      some (place ++ [artifact.fileName], artifact.content.toUTF8)) :
    tree.write (artifact.pathIn directory) artifact.content .ifChanged =
      if tree.isPlaceable (artifact.pathIn directory) place artifact.fileName = true then
        (tree.set (place ++ [artifact.fileName]) (.file artifact.content.toUTF8), some .written)
      else (tree, none) := by
  have hslot := h.isSlot hslash
  rw [← hslot.writeFile_eq hname]
  refine write_eq_writeFile fun l hfile ↦ hdiffers ?_
  rw [hfile, ((hslot.file?_eq_some_iff hname).1 hfile).2.1]

theorem exists_write_eq (hhold : canHold tree directory place artifact = true) :
    ∃ next result, tree.write (artifact.pathIn directory) artifact.content .ifChanged =
        (next, some result) ∧ Stocked tree place [artifact] next := by
  by_cases hfile : tree.file? (artifact.pathIn directory) =
      some (place ++ [artifact.fileName], artifact.content.toUTF8)
  · have hthere := ((h.file?_eq_some_iff hname hslash).1 hfile).2
    exact ⟨tree, .unchanged, write_eq_unchanged hfile, rfl, List.forall_mem_singleton.2 hthere,
      fun _ _ ↦ rfl⟩
  · have hplace := (canHold_iff.1 hhold).resolve_left
      (mt (h.file?_eq_some_iff hname hslash).2 hfile)
    have hentry := occupant?_set h.isDirectory (occupant?_ne_of_canHold hhold)
      artifact.content.toUTF8
    rw [h.write_eq hname hslash hfile, if_pos hplace]
    refine ⟨_, .written, rfl, rfl, List.forall_mem_singleton.2 ?_, fun l hl ↦ ?_⟩
    · rw [hentry, if_pos rfl]
    · rw [hentry, if_neg (hl artifact List.mem_cons_self)]

theorem write_eq_none (hhold : canHold tree directory place artifact = false) :
    tree.write (artifact.pathIn directory) artifact.content .ifChanged = (tree, none) := by
  obtain ⟨hdiffers, hplace⟩ := not_or.1 (mt canHold_iff.2 (Bool.eq_false_iff.1 hhold))
  rw [h.write_eq hname hslash (mt (h.file?_eq_some_iff hname hslash).1 hdiffers), if_neg hplace]

end Artifact

/-- Writing into a directory that is there puts artifacts in their places one after the other, up
to the first that cannot be held, and does nothing else. -/
theorem stocked_writeArtifacts (hname : ∀ artifact ∈ artifacts, isName artifact.fileName = true)
    (hslash : ∀ artifact ∈ artifacts, '/' ∉ artifact.fileName.toList)
    (hnodup : (artifacts.map Artifact.fileName).Nodup) (outcome : WriteOutcome) :
    Stocked tree place (artifacts.takeWhile (canHold tree directory place))
      (writeArtifacts directory tree outcome artifacts).1 ∧
    ∃ outcome' : WriteOutcome, (writeArtifacts directory tree outcome artifacts).2 =
      outcome'.upTo directory (artifacts.find? (!canHold tree directory place ·)) := by
  induction artifacts generalizing tree outcome with
  | nil => exact ⟨.refl place tree, outcome, rfl⟩
  | cons artifact artifacts ih =>
    obtain ⟨hfirst, hname⟩ := List.forall_mem_cons.1 hname
    obtain ⟨hfirst', hslash⟩ := List.forall_mem_cons.1 hslash
    obtain ⟨hnew, hnodup⟩ := List.nodup_cons.1 hnodup
    rw [writeArtifacts_cons, List.takeWhile_cons, List.find?_cons]
    cases hhold : canHold tree directory place artifact with
    | false =>
      rw [h.write_eq_none hfirst hfirst' hhold]
      exact ⟨.refl place tree, outcome, rfl⟩
    | true =>
      obtain ⟨next, result, hwrite, hnext⟩ := h.exists_write_eq hfirst hfirst' hhold
      have hall : ∀ other ∈ [artifact], canHold tree directory place other = true :=
        List.forall_mem_singleton.2 hhold
      have hstocked := ih ((hnext.agree hall).symm.isDirectoryAt h) hname hslash hnodup
        (outcome.add (artifact.pathIn directory) result)
      rw [hnext.canHold_eq hall] at hstocked
      rw [hwrite]
      refine ⟨hnext.cons hstocked.1 fun hmem ↦ hnew ?_, hstocked.2⟩
      exact ((List.takeWhile_sublist _).map _).subset hmem

end FileTree.IsDirectoryAt

theorem Stocked.file?_eq (h : Stocked tree place done next)
    (hdone : ∀ artifact ∈ done, canHold tree directory place artifact = true)
    (hplace : IsDirectoryAt tree directory place) (hmem : artifact ∈ done)
    (hname : isName artifact.fileName = true) (hslash : '/' ∉ artifact.fileName.toList) :
    next.file? (artifact.pathIn directory) =
      some (place ++ [artifact.fileName], artifact.content.toUTF8) :=
  (((h.agree hdone).symm.isDirectoryAt hplace).file?_eq_some_iff hname hslash).2
    ⟨isAdmissible_of_canHold (hdone artifact hmem), h.holds artifact hmem⟩

theorem writeArtifacts_of_complete (outcome : WriteOutcome)
    (h : ∀ artifact ∈ artifacts, ∃ l,
      tree.file? (artifact.pathIn directory) = some (l, artifact.content.toUTF8)) :
    writeArtifacts directory tree outcome artifacts = (tree, .ok { outcome with
      unchanged := outcome.unchanged ++ artifacts.map (·.pathIn directory) }) := by
  induction artifacts generalizing outcome with
  | nil =>
    rw [List.map_nil, List.append_nil]
    rfl
  | cons artifact artifacts ih =>
    obtain ⟨⟨l, hfile⟩, hrest⟩ := List.forall_mem_cons.1 h
    rw [writeArtifacts_cons, write_eq_unchanged hfile]
    simp only [ih _ hrest, WriteOutcome.add, List.map_cons, List.append_assoc,
      List.singleton_append]

end PairedSource
