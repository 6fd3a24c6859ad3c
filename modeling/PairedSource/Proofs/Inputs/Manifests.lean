import PairedSource.Proofs.FileTree.Listing
import PairedSource.Proofs.Inputs.Repeats
import PairedSource.Proofs.Lists
import PairedSource.Proofs.Output.InPlace
import PairedSource.Proofs.Path.FileName
import PairedSource.Proofs.Path.Order

namespace PairedSource

namespace Inputs

open FileTree

variable {tree : FileTree} {directory p : Path} {place : Location} {name : String}

/-- The names of manifests: something, then `.toml`. The settings file is none. -/
def IsManifestName (name : String) : Prop :=
  (∃ stem, stem ≠ "" ∧ name = stem ++ ".toml") ∧ name ≠ "duet.toml"

variable (tree directory place name) in
/-- A directory holds a manifest under a name, and its path, the name behind the directory as it
is spelled, is not too long to be followed. -/
structure HoldsManifest : Prop where
  isManifestName : IsManifestName name
  isFile : (tree.fileAt (place ++ [name])).isSome = true
  withinLimit : (directory.join ⟨name⟩).text.utf8ByteSize ≤ maxPathLength

theorem HoldsManifest.mem_names {children : List (String × Node)}
    (h : HoldsManifest tree directory place name)
    (hdir : tree.root.find? place = some (.directory children)) : name ∈ children.map Prod.fst := by
  obtain ⟨content, hcontent⟩ := Option.isSome_iff_exists.1 h.isFile
  rw [mem_names_iff hdir, occupant?_eq_file_iff.2 hcontent]
  rfl

theorem isManifest_join_iff (h : IsDirectoryAt tree directory place)
    (hadm : isAdmissible directory = true) (hentry : isEntryName name = true) :
    isManifest tree (directory.join ⟨name⟩) = true ↔ HoldsManifest tree directory place name := by
  obtain ⟨hname, hslash, hnul⟩ := isEntryName_iff.1 hentry
  have hslot := isSlot_join h.walk h.isDirectory hslash
  have hfile : tree.isFile (directory.join ⟨name⟩) = true ↔
      isAdmissible (directory.join ⟨name⟩) = true ∧
        (tree.fileAt (place ++ [name])).isSome = true := by
    rw [isFile_eq, Option.isSome_iff_exists, Option.isSome_iff_exists]
    constructor
    · intro h
      obtain ⟨⟨l, content⟩, h⟩ := h
      obtain ⟨hadm, rfl, hcontent⟩ := (hslot.file?_eq_some_iff hname).1 h
      exact ⟨hadm, content, occupant?_eq_file_iff.1 hcontent⟩
    · intro h
      obtain ⟨hadm, content, hcontent⟩ := h
      exact ⟨(_, content), (hslot.file?_eq_some_iff hname).2
        ⟨hadm, rfl, occupant?_eq_file_iff.2 hcontent⟩⟩
  have hadmissible : isAdmissible (directory.join ⟨name⟩) = true ↔
      (directory.join ⟨name⟩).text.utf8ByteSize ≤ maxPathLength := by
    rw [isAdmissible_iff, Path.mem_text_join (Path.isAbsolute_mk hslash) (by decide)]
    simp [(isAdmissible_iff.1 hadm).2, hnul]
  have hfileName := hslot.fileName?_eq hname
  have hsettings : Settings.defaultFile.fileName? = some "duet.toml" := by decide
  simp only [isManifest, Bool.and_eq_true, beq_iff_eq, bne_iff_ne, hfile, hadmissible,
    Path.extension?_eq_toml_iff hfileName, hfileName, hsettings, ne_eq, Option.some.injEq]
  constructor
  · intro h
    obtain ⟨⟨⟨hlimit, hsome⟩, hstem⟩, hne⟩ := h
    exact ⟨⟨hstem, hne⟩, hsome, hlimit⟩
  · intro h
    exact ⟨⟨⟨h.withinLimit, h.isFile⟩, h.isManifestName.1⟩, h.isManifestName.2⟩

theorem entries_eq (h : IsDirectoryAt tree directory place)
    (hadm : isAdmissible directory = true) (hne : directory.text ≠ "")
    {children : List (String × Node)}
    (hdir : tree.root.find? place = some (.directory children)) :
    tree.entries directory = children.map Prod.fst := by
  have hlocate : tree.locate directory = .ok place := by
    simp only [locate, String.isEmpty_iff, hne, if_false, hadm, Bool.not_true, Bool.false_eq_true]
    exact h.walk
  simp only [entries, node?, hlocate, hdir, Node.children]

variable (tree directory place) in
structure AreManifests (found : List Path) : Prop where
  sorted : found.Pairwise Path.Before
  mem_iff : ∀ p, p ∈ found ↔
    ∃ name, HoldsManifest tree directory place name ∧ p = directory.join ⟨name⟩

theorem AreManifests.unique {found found' : List Path} (h : AreManifests tree directory place found)
    (h' : AreManifests tree directory place found') : found = found' := by
  have hdistinct : ∀ {l : List Path}, l.Pairwise Path.Before → l.Nodup := fun hl ↦
    hl.imp fun {p q} hbefore heq ↦ by
      subst heq
      exact hbefore.asymm hbefore
  have hperm : found.Perm found' :=
    (List.perm_ext_iff_of_nodup (hdistinct h.sorted) (hdistinct h'.sorted)).2 fun p ↦ by
      rw [h.mem_iff, h'.mem_iff]
  exact hperm.eq_of_pairwise (fun p q _ _ hpq hqp ↦ absurd hqp hpq.asymm) h.sorted h'.sorted

theorem components_join_entry (hentry : isEntryName name = true) (directory : Path) :
    (directory.join ⟨name⟩).components = directory.components ++ [.name name] := by
  obtain ⟨hname, hslash, -⟩ := isEntryName_iff.1 hentry
  exact Path.components_join hslash (isName_iff.1 hname)

theorem areManifests_manifestsIn (hnamed : tree.WellNamed) (h : IsDirectoryAt tree directory place)
    (hadm : isAdmissible directory = true) (hne : directory.text ≠ "") :
    AreManifests tree directory place (manifestsIn tree directory) := by
  obtain ⟨children, hdir⟩ := occupant?_eq_directory_iff.1 h.isDirectory
  have hentry : ∀ name ∈ tree.entries directory, isEntryName name = true := by
    rw [entries_eq h hadm hne hdir]
    exact hnamed.isEntryName hdir
  constructor
  · have hnodup : (tree.entries directory).Nodup := by
      rw [entries_eq h hadm hne hdir]
      exact hnamed.nodup hdir
    have hsorted := List.pairwise_mergeSort_of_nodup hnodup
    refine List.Pairwise.filter _ (List.pairwise_map.2 (hsorted.imp_of_mem ?_))
    intro s t hs ht hlt
    exact Path.before_of_components directory.components
      (components_join_entry (hentry s (List.mem_mergeSort.1 hs)) directory)
      (components_join_entry (hentry t (List.mem_mergeSort.1 ht)) directory) hlt
  · intro p
    rw [manifestsIn, List.mem_filter, List.mem_map]
    constructor
    · intro hp
      obtain ⟨⟨name, hname, rfl⟩, hmanifest⟩ := hp
      have hname := hentry name (List.mem_mergeSort.1 hname)
      exact ⟨name, (isManifest_join_iff h hadm hname).1 hmanifest, rfl⟩
    · intro hp
      obtain ⟨name, hholds, rfl⟩ := hp
      have hname : name ∈ tree.entries directory := by
        rw [entries_eq h hadm hne hdir]
        exact hholds.mem_names hdir
      exact ⟨⟨name, List.mem_mergeSort.2 hname, rfl⟩,
        (isManifest_join_iff h hadm (hentry name hname)).2 hholds⟩

end Inputs

end PairedSource
