import PairedSource.Proofs.Except
import PairedSource.Proofs.FileTree.Detours
import PairedSource.Proofs.Inputs.Manifests

namespace PairedSource.Inputs

open FileTree

variable {tree other : FileTree} {input p : Path} {place : Location} {name : String}
  {inputs paths found : List Path} {e : NoManifests}

variable (tree input) in
structure IsBarren : Prop where
  isDirectory : tree.isDirectory input = true
  notHolds : ∀ place name, IsDirectoryAt tree input place → ¬HoldsManifest tree input place name

variable (tree input) in
/-- The paths that an input stands for. -/
inductive StandsFor : List Path → Prop
  | itself (h : tree.isDirectory input = false) : StandsFor [input]
  | manifests (place : Location) (found : List Path) (h : tree.isDirectory input = true)
      (hplace : IsDirectoryAt tree input place) (hfound : AreManifests tree input place found)
      (hne : found ≠ []) : StandsFor found

theorem exists_areManifests (hnamed : tree.WellNamed) (h : tree.isDirectory input = true) :
    ∃ place, IsDirectoryAt tree input place ∧
      AreManifests tree input place (manifestsIn tree input) := by
  obtain ⟨hne, hadm, -⟩ := isDirectory_iff.1 h
  obtain ⟨place, hplace⟩ := exists_isDirectoryAt h
  exact ⟨place, hplace, areManifests_manifestsIn hnamed hplace hadm hne⟩

theorem isBarren_iff (hnamed : tree.WellNamed) :
    IsBarren tree input ↔ tree.isDirectory input = true ∧ manifestsIn tree input = [] := by
  constructor
  · intro h
    obtain ⟨place, hplace, hfound⟩ := exists_areManifests hnamed h.isDirectory
    refine ⟨h.isDirectory, List.eq_nil_iff_forall_not_mem.2 fun p hp ↦ ?_⟩
    obtain ⟨name, hholds, -⟩ := (hfound.mem_iff p).1 hp
    exact h.notHolds place name hplace hholds
  · intro h
    obtain ⟨hdir, hnil⟩ := h
    obtain ⟨place, hplace, hfound⟩ := exists_areManifests hnamed hdir
    refine ⟨hdir, fun place' name hplace' hholds ↦ ?_⟩
    obtain rfl := hplace.unique hplace'
    have hmem := (hfound.mem_iff _).2 ⟨name, hholds, rfl⟩
    rw [hnil] at hmem
    cases hmem

theorem expandOne_eq_error_iff (hnamed : tree.WellNamed) :
    expandOne tree input = .error e ↔ IsBarren tree input ∧ e = ⟨input⟩ := by
  rw [isBarren_iff hnamed, expandOne]
  by_cases hdir : tree.isDirectory input = true
  · rw [if_pos hdir]
    cases manifestsIn tree input with
    | nil => simp [hdir, eq_comm]
    | cons p found => simp
  · simp [hdir]

theorem expandOne_eq_ok_iff (hnamed : tree.WellNamed) :
    expandOne tree input = .ok found ↔ StandsFor tree input found := by
  by_cases hdir : tree.isDirectory input = true
  · obtain ⟨place, hplace, hmanifests⟩ := exists_areManifests hnamed hdir
    have hone : expandOne tree input = .ok found ↔
        found ≠ [] ∧ manifestsIn tree input = found := by
      rw [expandOne, if_pos hdir]
      cases manifestsIn tree input with
      | nil =>
        constructor
        · intro h
          cases h
        · exact fun h ↦ absurd h.2.symm h.1
      | cons p rest =>
        constructor
        · intro h
          obtain rfl := Except.ok.inj h
          exact ⟨List.cons_ne_nil _ _, rfl⟩
        · exact fun h ↦ congrArg _ h.2
    rw [hone]
    constructor
    · intro h
      obtain ⟨hne, rfl⟩ := h
      exact .manifests place _ hdir hplace hmanifests hne
    · intro h
      cases h with
      | itself h => exact absurd hdir (Bool.eq_false_iff.1 h)
      | manifests place' _ _ hplace' hfound hne =>
        obtain rfl := hplace.unique hplace'
        exact ⟨hne, hmanifests.unique hfound⟩
  · rw [Bool.not_eq_true] at hdir
    rw [expandOne, if_neg (Bool.eq_false_iff.1 hdir)]
    constructor
    · intro h
      obtain rfl := Except.ok.inj h
      exact .itself hdir
    · intro h
      cases h with
      | itself => rfl
      | manifests _ _ h => exact absurd h (Bool.eq_false_iff.1 hdir)

theorem exists_standsFor_iff (hnamed : tree.WellNamed) :
    (∃ found, StandsFor tree input found) ↔ ¬IsBarren tree input := by
  simp only [← expandOne_eq_ok_iff hnamed]
  constructor
  · intro h hbarren
    obtain ⟨found, h⟩ := h
    rw [(expandOne_eq_error_iff hnamed).2 ⟨hbarren, rfl⟩] at h
    cases h
  · intro h
    cases hone : expandOne tree input with
    | error e => exact absurd ((expandOne_eq_error_iff hnamed).1 hone).1 h
    | ok found => exact ⟨found, rfl⟩

theorem expand_eq : expand tree inputs =
    (inputs.mapM (expandOne tree)).map (firstSpellings ·.flatten) := by
  rw [expand]
  cases inputs.mapM (expandOne tree) with
  | error e => rfl
  | ok parts => exact congrArg Except.ok (dropRepeats_eq_firstSpellings _)

section Orders

theorem HoldsManifest.congr (hsame : tree.Same other) (h : HoldsManifest tree input place name) :
    HoldsManifest other input place name :=
  ⟨h.isManifestName, fileAt_eq_of_occupant?_eq (hsame.entry (place ++ [name])) ▸ h.isFile,
    h.withinLimit⟩

theorem AreManifests.congr (hsame : tree.Same other) (h : AreManifests tree input place found) :
    AreManifests other input place found :=
  ⟨h.sorted, fun p ↦ (h.mem_iff p).trans (exists_congr fun _ ↦ and_congr_left fun _ ↦
    ⟨HoldsManifest.congr hsame, HoldsManifest.congr (hsame.symm)⟩)⟩

theorem StandsFor.congr (hsame : tree.Same other) (h : StandsFor tree input found) :
    StandsFor other input found := by
  have hdir := hsame.agree.isDirectory_eq input
  cases h with
  | itself h => exact .itself (hdir ▸ h)
  | manifests place _ h hplace hfound hne =>
    exact .manifests place _ (hdir ▸ h) (hsame.agree.isDirectoryAt hplace) (hfound.congr hsame) hne

theorem expandOne_congr (hnamed : tree.WellNamed) (hother : other.WellNamed)
    (hsame : tree.Same other) : expandOne other input = expandOne tree input := by
  cases h : expandOne tree input with
  | ok found =>
    exact (expandOne_eq_ok_iff hother).2 (((expandOne_eq_ok_iff hnamed).1 h).congr hsame)
  | error e =>
    obtain ⟨hbarren, rfl⟩ := (expandOne_eq_error_iff hnamed).1 h
    refine (expandOne_eq_error_iff hother).2
      ⟨⟨hsame.agree.isDirectory_eq input ▸ hbarren.isDirectory, ?_⟩, rfl⟩
    intro place name hplace hholds
    exact hbarren.notHolds place name (hsame.symm.agree.isDirectoryAt hplace)
      (hholds.congr hsame.symm)

end Orders

theorem StandsFor.isDirectory_eq_false (hnamed : tree.WellNamed) (h : StandsFor tree input found)
    (hp : p ∈ found) : tree.isDirectory p = false := by
  cases h with
  | itself h =>
    obtain rfl := List.mem_singleton.1 hp
    exact h
  | manifests place _ hdir hplace hfound _ =>
    obtain ⟨place', hplace', hmanifests⟩ := exists_areManifests hnamed hdir
    obtain rfl := hplace.unique hplace'
    rw [hfound.unique hmanifests, manifestsIn, List.mem_filter] at hp
    have hfile : tree.isFile p = true := by
      have hmanifest := hp.2
      simp only [isManifest, Bool.and_eq_true] at hmanifest
      exact hmanifest.1.1
    exact isDirectory_eq_false_of_isFile hfile

theorem firstSpellings_sublist (all : List Path) : (firstSpellings all).Sublist all :=
  dropRepeats_eq_firstSpellings all ▸ dropRepeats_sublist [] all

theorem firstSpellings_eq_self {all : List Path} (h : all.Pairwise fun p q ↦ ¬p.Same q) :
    firstSpellings all = all :=
  dropRepeats_eq_firstSpellings all ▸ dropRepeats_eq_self h fun _ hq ↦ absurd hq List.not_mem_nil

theorem expand_eq_error_iff (hnamed : tree.WellNamed) : expand tree inputs = .error e ↔
    ∃ before after, inputs = before ++ e.directory :: after ∧ IsBarren tree e.directory ∧
      ∀ p ∈ before, ¬IsBarren tree p := by
  have hbefore : ∀ before : List Path, (∃ parts, before.mapM (expandOne tree) = .ok parts) ↔
      ∀ p ∈ before, ¬IsBarren tree p := by
    intro before
    simp only [Except.exists_mapM_eq_ok_iff, expandOne_eq_ok_iff hnamed,
      exists_standsFor_iff hnamed]
  have hmapM : expand tree inputs = .error e ↔ inputs.mapM (expandOne tree) = .error e := by
    rw [expand_eq]
    cases inputs.mapM (expandOne tree) <;> simp [Except.map]
  rw [hmapM, Except.mapM_eq_error_iff]
  constructor
  · intro h
    obtain ⟨before, d, after, rfl, hok, herror⟩ := h
    obtain ⟨hbarren, rfl⟩ := (expandOne_eq_error_iff hnamed).1 herror
    exact ⟨before, after, rfl, hbarren, (hbefore before).1 hok⟩
  · intro h
    obtain ⟨before, after, hinputs, hbarren, hnone⟩ := h
    exact ⟨before, e.directory, after, hinputs, (hbefore before).2 hnone,
      (expandOne_eq_error_iff hnamed).2 ⟨hbarren, rfl⟩⟩

theorem expand_eq_ok_iff (hnamed : tree.WellNamed) : expand tree inputs = .ok paths ↔
    ∃ parts, List.Forall₂ (StandsFor tree) inputs parts ∧ paths = firstSpellings parts.flatten := by
  simp only [expand_eq, Except.map_eq_ok_iff, Except.mapM_eq_ok_iff, expandOne_eq_ok_iff hnamed,
    eq_comm (a := paths)]

theorem expand_eq_self (hdir : ∀ p ∈ paths, tree.isDirectory p = false)
    (hdistinct : paths.Pairwise fun p q ↦ ¬p.Same q) : expand tree paths = .ok paths := by
  have hparts : paths.mapM (expandOne tree) = .ok (paths.map fun p ↦ [p]) := by
    rw [Except.mapM_eq_ok_iff, List.forall₂_map_right_iff, List.forall₂_same]
    intro p hp
    rw [expandOne, if_neg (Bool.eq_false_iff.1 (hdir p hp))]
  have hflatten : (paths.map fun p ↦ [p]).flatten = paths := by
    rw [← List.flatMap_def, List.flatMap_singleton']
  rw [expand_eq, hparts, Except.map, hflatten, firstSpellings_eq_self hdistinct]

theorem expand_idem (hnamed : tree.WellNamed) (h : expand tree inputs = .ok paths) :
    expand tree paths = .ok paths := by
  obtain ⟨parts, hparts, rfl⟩ := (expand_eq_ok_iff hnamed).1 h
  refine expand_eq_self (fun p hp ↦ ?_) ?_
  · obtain ⟨part, hpart, hp⟩ := List.mem_flatten.1 ((firstSpellings_sublist _).subset hp)
    obtain ⟨input, -, hstands⟩ := hparts.exists_of_mem_right hpart
    exact hstands.isDirectory_eq_false hnamed hp
  · rw [← dropRepeats_eq_firstSpellings]
    exact pairwise_dropRepeats _ _

theorem expand_congr (hnamed : tree.WellNamed) (hother : other.WellNamed)
    (hsame : tree.Same other) : expand other inputs = expand tree inputs := by
  have hone : expandOne other = expandOne tree :=
    funext fun _ ↦ expandOne_congr hnamed hother hsame
  rw [expand, expand, hone]

/-- Inputs are expanded unless one of them is a directory without a manifest. Each stands for itself
or for the manifests in it in the order of their paths, the first spelling of a path is kept, and
neither the order in which directories list their entries nor a second expansion makes any
difference. -/
theorem expand_exact (hnamed : tree.WellNamed) (inputs : List Path) :
    ((∃ e, expand tree inputs = .error e) ↔ ∃ d ∈ inputs, IsBarren tree d) ∧
      (∀ e, expand tree inputs = .error e ↔ ∃ before after,
        inputs = before ++ e.directory :: after ∧ IsBarren tree e.directory ∧
          ∀ p ∈ before, ¬IsBarren tree p) ∧
      (∀ paths, expand tree inputs = .ok paths ↔ ∃ parts,
        List.Forall₂ (StandsFor tree) inputs parts ∧ paths = firstSpellings parts.flatten) ∧
      (∀ other : FileTree, other.WellNamed → tree.Same other →
        expand other inputs = expand tree inputs) ∧
      ∀ paths, expand tree inputs = .ok paths → expand tree paths = .ok paths := by
  refine ⟨?_, fun e ↦ expand_eq_error_iff hnamed, fun paths ↦ expand_eq_ok_iff hnamed,
    fun other hother hsame ↦ expand_congr hnamed hother hsame,
    fun paths h ↦ expand_idem hnamed h⟩
  constructor
  · intro h
    obtain ⟨e, h⟩ := h
    obtain ⟨before, after, rfl, hbarren, -⟩ := (expand_eq_error_iff hnamed).1 h
    exact ⟨e.directory, by simp, hbarren⟩
  · intro h
    obtain ⟨d, hd, hbarren⟩ := h
    cases hexpand : expand tree inputs with
    | error e => exact ⟨e, rfl⟩
    | ok paths =>
      obtain ⟨parts, hparts, -⟩ := (expand_eq_ok_iff hnamed).1 hexpand
      obtain ⟨part, -, hstands⟩ := hparts.exists_of_mem_left hd
      exact absurd hbarren ((exists_standsFor_iff hnamed).1 ⟨part, hstands⟩)

def shelf : FileTree where
  root := .directory [("x.toml", .directory []), ("units.toml", .file "[units.a]".toUTF8),
    (".toml", .file "".toUTF8), ("duet.toml", .file "".toUTF8)]
  workingDirectory := []

theorem areManifests_shelf : AreManifests shelf ⟨"."⟩ [] [⟨"./units.toml"⟩] := by
  have hunits : HoldsManifest shelf ⟨"."⟩ [] "units.toml" :=
    ⟨⟨⟨"units", by decide, rfl⟩, by decide⟩, rfl, by decide⟩
  refine ⟨List.pairwise_singleton _ _, fun p ↦ ?_⟩
  rw [List.mem_singleton]
  constructor
  · intro h
    exact ⟨"units.toml", hunits, h⟩
  · intro h
    obtain ⟨name, hholds, rfl⟩ := h
    have hname : name ∈ ["x.toml", "units.toml", ".toml", "duet.toml"] := hholds.mem_names rfl
    simp only [List.mem_cons, List.not_mem_nil, or_false] at hname
    rcases hname with rfl | rfl | rfl | rfl
    · exact absurd hholds.isFile (by decide)
    · rfl
    · obtain ⟨stem, hstem, heq⟩ := hholds.isManifestName.1
      exact absurd (String.append_eq_right_iff.1 heq.symm) hstem
    · exact absurd rfl hholds.isManifestName.2

theorem standsFor_shelf : StandsFor shelf ⟨"."⟩ [⟨"./units.toml"⟩] :=
  .manifests [] _ (by decide) ⟨rfl, rfl⟩ areManifests_shelf (List.cons_ne_nil _ _)

theorem expand_exact_shelf : shelf.WellNamed ∧
    expand shelf [⟨"."⟩, ⟨".//units.toml"⟩, ⟨"absent"⟩] = .ok [⟨"./units.toml"⟩, ⟨"absent"⟩] ∧
    expand shelf [⟨"absent"⟩, ⟨"x.toml"⟩] = .error ⟨⟨"x.toml"⟩⟩ := by
  have hnamed : shelf.WellNamed := wellNamed_of_isWellNamed (by decide)
  have habsent : StandsFor shelf ⟨"absent"⟩ [⟨"absent"⟩] := .itself (by decide)
  have hbarren : IsBarren shelf ⟨"x.toml"⟩ := by
    refine ⟨by decide, fun place name hplace hholds ↦ ?_⟩
    obtain rfl : place = ["x.toml"] := Except.ok.inj hplace.walk.symm
    cases hholds.isFile
  refine ⟨hnamed, ?_, ?_⟩
  · exact ((expand_exact hnamed _).2.2.1 _).2
      ⟨_, .cons standsFor_shelf (.cons (.itself (by decide)) (.cons habsent .nil)), by decide⟩
  · refine ((expand_exact hnamed _).2.1 _).2 ⟨[⟨"absent"⟩], [], rfl, hbarren, ?_⟩
    intro p hp
    obtain rfl := List.mem_singleton.1 hp
    exact (exists_standsFor_iff hnamed).1 ⟨_, habsent⟩

def landing : FileTree where
  root := .directory [("x", .directory []), ("a.toml", .file "[units.a]".toUTF8)]
  workingDirectory := []

def winding (n : Nat) : Path :=
  ⟨"/".intercalate (detours (n + 1))⟩

theorem utf8ByteSize_winding (n : Nat) : (winding n).text.utf8ByteSize = 5 * n + 4 :=
  utf8ByteSize_detours n

theorem isDirectoryAt_winding (n : Nat) : IsDirectoryAt landing (winding n) [] := by
  have hsegments : (winding n).segments = detours (n + 1) := by
    refine Path.segments_intercalate (List.cons_ne_nil _ _) fun s hs ↦ ?_
    rcases mem_of_mem_detours hs with rfl | rfl <;> decide
  have hstart : landing.start (winding n) = [] := by
    unfold start
    split <;> rfl
  refine ⟨?_, rfl⟩
  rw [hsegments, hstart]
  exact walk_detours_of_isDirectory rfl rfl _

theorem isDirectory_winding {n : Nat} (h : 5 * n + 4 ≤ maxPathLength) :
    landing.isDirectory (winding n) = true := by
  have hadm : isAdmissible (winding n) = true := by
    rw [isAdmissible_iff, utf8ByteSize_winding]
    exact ⟨h, nul_notMem_detours _⟩
  have hne : (winding n).text ≠ "" := by
    intro hempty
    have hsize := utf8ByteSize_winding n
    rw [hempty] at hsize
    cases hsize
  exact isDirectory_iff.2 ⟨hne, hadm, [], _, (isDirectoryAt_winding n).walk, rfl⟩

theorem isBarren_winding (hnamed : landing.WellNamed) {n : Nat} (h : 5 * n + 4 ≤ maxPathLength)
    (hlong : maxPathLength < 5 * n + 9) : IsBarren landing (winding n) := by
  refine ⟨isDirectory_winding h, fun place name hplace hholds ↦ ?_⟩
  obtain rfl := (isDirectoryAt_winding n).unique hplace
  have hroot : landing.root.find? [] = some (.directory _) := rfl
  have hentry := hnamed.isEntryName hroot name (hholds.mem_names hroot)
  obtain ⟨-, hslash, -⟩ := isEntryName_iff.1 hentry
  obtain ⟨stem, -, rfl⟩ := hholds.isManifestName.1
  have hsize := Nat.le_trans (utf8ByteSize_le_join_detours n (Path.isAbsolute_mk hslash))
    hholds.withinLimit
  have hextension : ".toml".utf8ByteSize = 5 := rfl
  rw [String.utf8ByteSize_append, hextension] at hsize
  omega

/-- A directory can have a spelling that is followed while the paths of its manifests are too
long. -/
theorem expand_fails_for_long_spelling :
    landing.WellNamed ∧ ∃ d : Path, IsDirectoryAt landing d [] ∧ landing.isDirectory d = true ∧
      IsManifestName "a.toml" ∧ (landing.fileAt ["a.toml"]).isSome = true ∧
      expand landing [d] = .error ⟨d⟩ := by
  have hnamed : landing.WellNamed := wellNamed_of_isWellNamed (by decide)
  have hbarren : IsBarren landing (winding 818) :=
    isBarren_winding hnamed (by decide) (by decide)
  exact ⟨hnamed, winding 818, isDirectoryAt_winding 818, hbarren.isDirectory,
    ⟨⟨"a", by decide, rfl⟩, by decide⟩, rfl,
    (expand_eq_error_iff hnamed).2 ⟨[], [], rfl, hbarren, fun _ hp ↦ absurd hp List.not_mem_nil⟩⟩

end PairedSource.Inputs
