import PairedSource.Proofs.Assembly.Placement
import PairedSource.Proofs.FileTree.Put

namespace PairedSource

open FileTree

variable {directory : Path} {tree current next final : FileTree} {place l : Location}
  {first artifact : Artifact} {artifacts done rest : List Artifact}
  {outcome outcome' : WriteOutcome} {result : WriteResult} {same same' : Artifact → Prop}
  {e : Error}

open scoped Classical in
variable (directory artifacts outcome same) in
/-- The paths of some artifacts in their order, the unchanged ones apart from the others. -/
def Splits : Prop :=
  outcome.unchanged = (artifacts.filter (same ·)).map (·.pathIn directory) ∧
    outcome.written = (artifacts.filter (¬same ·)).map (·.pathIn directory)

theorem splits_nil : Splits directory [] {} same :=
  ⟨rfl, rfl⟩

theorem Splits.add (h : Splits directory artifacts outcome same)
    (hresult : result = .unchanged ↔ same artifact) :
    Splits directory (artifacts ++ [artifact])
      (outcome.add (artifact.pathIn directory) result) same := by
  obtain ⟨hunchanged, hwritten⟩ := h
  constructor
  · rw [List.filter_append, List.map_append, ← hunchanged]
    cases result <;> simp [WriteOutcome.add, ← hresult]
  · rw [List.filter_append, List.map_append, ← hwritten]
    cases result <;> simp [WriteOutcome.add, ← hresult]

theorem Splits.congr (h : Splits directory artifacts outcome same)
    (hsame : ∀ artifact ∈ artifacts, same artifact ↔ same' artifact) :
    Splits directory artifacts outcome same' := by
  obtain ⟨hunchanged, hwritten⟩ := h
  constructor
  · rw [hunchanged, List.filter_congr fun artifact hmem ↦ decide_eq_decide.2 (hsame artifact hmem)]
  · rw [hwritten, List.filter_congr fun artifact hmem ↦
      decide_eq_decide.2 (not_congr (hsame artifact hmem))]

variable (directory tree first place artifacts outcome final) in
/-- Some artifacts stand in a directory, and nothing else in the tree has changed but for new
directories. Only the first of them may have been there without being found. -/
structure WrittenIn : Prop where
  walk : final.walk (final.start directory) directory.segments = .ok place
  isDirectory : final.occupant? place = some none
  file : ∀ artifact ∈ artifacts, final.file? (artifact.pathIn directory) =
    some (place ++ [artifact.fileName], artifact.content.toUTF8)
  later : Later (fun l ↦ ∃ artifact ∈ artifacts, l = place ++ [artifact.fileName]) tree final
  splits : Splits directory artifacts outcome fun artifact ↦
    tree.fileAt (place ++ [artifact.fileName]) = some artifact.content.toUTF8 ∧
      (artifact = first → tree.locate (artifact.pathIn directory) =
        .ok (place ++ [artifact.fileName]))

namespace WrittenIn

theorem of_first (hslash : '/' ∉ first.fileName.toList)
    (h : tree.write (first.pathIn directory) first.content .ifChanged = (next, some result)) :
    ∃ place, WrittenIn directory tree next place first [first]
      (({} : WriteOutcome).add (first.pathIn directory) result) := by
  obtain ⟨place, name, hput, hresult⟩ := put_of_write h
  obtain ⟨rfl, hwalk⟩ := hput.isSlot.of_join hslash
  refine ⟨place, hwalk, hput.isSlot.isDirectory, ?_, ?_, splits_nil.add ?_⟩
  · intro artifact hmem
    obtain rfl := List.mem_singleton.1 hmem
    exact hput.file
  · exact hput.later.mono fun l hl ↦ ⟨first, List.mem_singleton_self first, hl⟩
  · rw [hresult, file?_eq_some_iff_locate, and_comm]
    exact and_congr_right fun _ ↦ ⟨fun hlocate _ ↦ hlocate, fun hlocate ↦ hlocate rfl⟩

theorem add (h : WrittenIn directory tree current place first artifacts outcome)
    (hfirst : first ∈ artifacts) (hnew : artifact.fileName ∉ artifacts.map Artifact.fileName)
    (hname : isName artifact.fileName = true) (hslash : '/' ∉ artifact.fileName.toList)
    (hwrite : current.write (artifact.pathIn directory) artifact.content .ifChanged =
      (next, some result)) :
    WrittenIn directory tree next place first (artifacts ++ [artifact])
      (outcome.add (artifact.pathIn directory) result) := by
  obtain ⟨place', name, hput, hresult⟩ := put_of_write hwrite
  obtain ⟨rfl, hwalk⟩ := hput.isSlot.of_join hslash
  have hplace : place' = place :=
    Except.ok.inj (hwalk.symm.trans (hput.later.walk_start h.walk))
  subst hplace
  have hother : ∀ other ∈ artifacts,
      place' ++ [other.fileName] ≠ place' ++ [artifact.fileName] := by
    intro other hmem heq
    have hsame : other.fileName = artifact.fileName := by simpa using heq
    exact hnew (hsame ▸ List.mem_map_of_mem hmem)
  have hsame : current.fileAt (place' ++ [artifact.fileName]) =
      tree.fileAt (place' ++ [artifact.fileName]) := by
    refine h.later.fileAt _ fun hl ↦ ?_
    obtain ⟨other, hmem, heq⟩ := hl
    exact hother other hmem heq.symm
  refine ⟨hwalk, hput.isSlot.isDirectory, fun other hmem ↦ ?_, ?_, h.splits.add ?_⟩
  · rw [List.mem_append, List.mem_singleton] at hmem
    rcases hmem with hmem | rfl
    · exact hput.later.file? (h.file other hmem) (hother other hmem)
    · exact hput.file
  · refine (h.later.trans hput.later).mono fun l hl ↦ ?_
    rcases hl with ⟨other, hmem, hl⟩ | hl
    · exact ⟨other, List.mem_append_left _ hmem, hl⟩
    · exact ⟨artifact, by simp, hl⟩
  · have hslot : IsSlot current (artifact.pathIn directory) place' artifact.fileName :=
      isSlot_join h.walk h.isDirectory hslash
    have hadm := (file?_eq_some_iff.1 hput.file).1
    have hne : artifact ≠ first := by
      rintro rfl
      exact hnew (List.mem_map_of_mem hfirst)
    rw [hresult, hslot.file?_eq_some_iff hname, occupant?_eq_file_iff, hsame]
    exact ⟨fun hthere ↦ ⟨hthere.2.2, fun heq ↦ absurd heq hne⟩,
      fun hthere ↦ ⟨hadm, rfl, hthere.1⟩⟩

theorem of_later (h : WrittenIn directory tree current place first artifacts outcome)
    (hlater : Later (fun _ ↦ False) current final) :
    WrittenIn directory tree final place first artifacts outcome where
  walk := hlater.walk_start h.walk
  isDirectory := hlater.directory _ h.isDirectory
  file artifact hmem := hlater.file? (h.file artifact hmem) not_false
  later := (h.later.trans hlater).mono fun _ hl ↦ hl.resolve_right not_false
  splits := h.splits

end WrittenIn

theorem writtenIn_of_writeArtifacts
    (h : WrittenIn directory tree current place first done outcome) (hfirst : first ∈ done)
    (hname : ∀ artifact ∈ rest, isName artifact.fileName = true)
    (hslash : ∀ artifact ∈ rest, '/' ∉ artifact.fileName.toList)
    (hnodup : ((done ++ rest).map Artifact.fileName).Nodup) :
    (∀ outcome', writeArtifacts directory current outcome rest = (final, .ok outcome') →
      WrittenIn directory tree final place first (done ++ rest) outcome') ∧
    ∀ e, writeArtifacts directory current outcome rest = (final, .error e) →
      ∃ k artifact outcome', rest[k]? = some artifact ∧
        e = .writeFailure (artifact.pathIn directory) artifact.kind outcome'.written ∧
        WrittenIn directory tree final place first (done ++ rest.take k) outcome' := by
  induction rest generalizing done current outcome with
  | nil =>
    constructor
    · intro outcome' hwrite
      obtain ⟨rfl, houtcome⟩ := Prod.mk.inj hwrite
      obtain rfl := Except.ok.inj houtcome
      rwa [List.append_nil]
    · intro e hwrite
      cases hwrite
  | cons artifact rest ih =>
    have hnew : artifact.fileName ∉ done.map Artifact.fileName := by
      rw [List.map_append, List.map_cons] at hnodup
      exact fun hmem ↦ (List.nodup_append.1 hnodup).2.2 _ hmem _ List.mem_cons_self rfl
    have hrest := List.append_cons done artifact rest
    rw [hrest] at hnodup ⊢
    rw [writeArtifacts_cons]
    split
    · rename_i next result hwrite
      have hnext := h.add hfirst hnew (hname artifact List.mem_cons_self)
        (hslash artifact List.mem_cons_self) hwrite
      obtain ⟨hok, herror⟩ := ih hnext (List.mem_append_left _ hfirst)
        (fun other hmem ↦ hname other (List.mem_cons_of_mem _ hmem))
        (fun other hmem ↦ hslash other (List.mem_cons_of_mem _ hmem)) hnodup
      refine ⟨hok, fun e hwrite ↦ ?_⟩
      obtain ⟨k, other, outcome', hk, he, hwritten⟩ := herror e hwrite
      refine ⟨k + 1, other, outcome', hk, he, ?_⟩
      rwa [List.take_succ_cons, List.append_cons]
    · rename_i next hwrite
      constructor
      · intro outcome' hfail
        cases hfail
      · intro e hfail
        obtain ⟨rfl, he⟩ := Prod.mk.inj hfail
        refine ⟨0, artifact, outcome, rfl, (Except.error.inj he).symm, ?_⟩
        rw [List.take_zero, List.append_nil]
        exact h.of_later (later_of_write hwrite)

theorem later_of_writeArtifacts (directory : Path) (tree : FileTree) (outcome : WriteOutcome)
    (artifacts : List Artifact) :
    Later (fun _ ↦ True) tree (writeArtifacts directory tree outcome artifacts).1 := by
  induction artifacts generalizing tree outcome with
  | nil => exact .refl _ tree
  | cons artifact artifacts ih =>
    rw [writeArtifacts_cons]
    split
    · rename_i next result hwrite
      obtain ⟨place, name, hput, -⟩ := put_of_write hwrite
      exact (hput.later.trans (ih next _)).mono fun _ _ ↦ trivial
    · rename_i next hwrite
      exact (later_of_write hwrite).mono fun _ hl ↦ hl.elim

variable (directory tree artifacts outcome final) in
/-- Some artifacts have been written and nothing else: each path leads to its content, every other
file is as it was, and the paths are told apart by what their files held before. The first path
counts as unchanged only if it led to its file before. -/
structure IsWritten : Prop where
  complete : ∀ artifact ∈ artifacts, ∃ l,
    final.file? (artifact.pathIn directory) = some (l, artifact.content.toUTF8)
  framed : ∀ l, (∀ artifact ∈ artifacts, final.locate (artifact.pathIn directory) ≠ .ok l) →
    final.fileAt l = tree.fileAt l
  minimal : Splits directory artifacts outcome fun artifact ↦
    ∃ l, final.locate (artifact.pathIn directory) = .ok l ∧
      tree.fileAt l = some artifact.content.toUTF8 ∧
      (artifacts.head? = some artifact → tree.locate (artifact.pathIn directory) = .ok l)

theorem isWritten_nil (h : Later (fun _ ↦ False) tree final) :
    IsWritten directory tree final [] {} :=
  ⟨fun _ hmem ↦ (List.not_mem_nil hmem).elim, fun l _ ↦ h.fileAt l not_false, splits_nil⟩

theorem WrittenIn.isWritten (h : WrittenIn directory tree final place first artifacts outcome)
    (hfirst : artifacts.head? = some first) : IsWritten directory tree final artifacts outcome := by
  have hlocate : ∀ artifact ∈ artifacts, final.locate (artifact.pathIn directory) =
      .ok (place ++ [artifact.fileName]) :=
    fun artifact hmem ↦ (file?_eq_some_iff_locate.1 (h.file artifact hmem)).1
  refine ⟨fun artifact hmem ↦ ⟨_, h.file artifact hmem⟩, fun l hl ↦ ?_, h.splits.congr ?_⟩
  · refine h.later.fileAt l fun htouched ↦ ?_
    obtain ⟨artifact, hmem, rfl⟩ := htouched
    exact hl artifact hmem (hlocate artifact hmem)
  · intro artifact hmem
    rw [hfirst, Option.some_inj, eq_comm (a := first)]
    constructor
    · intro hsame
      exact ⟨_, hlocate artifact hmem, hsame⟩
    · intro hsame
      obtain ⟨l, hl, hsame⟩ := hsame
      obtain rfl := Except.ok.inj ((hlocate artifact hmem).symm.trans hl)
      exact hsame

theorem getLast?_of_locate_pathIn (hname : isName artifact.fileName = true)
    (hslash : '/' ∉ artifact.fileName.toList)
    (h : tree.locate (artifact.pathIn directory) = .ok l) :
    l.getLast? = some artifact.fileName := by
  obtain ⟨-, -, hw⟩ := locate_eq_ok_iff.1 h
  have hseg : ∃ front, (artifact.pathIn directory).segments = front ++ [artifact.fileName] := by
    rcases Path.segments_join_mk hslash directory with hj | ⟨front, -, hj⟩
    · exact ⟨_, hj⟩
    · exact ⟨_, hj⟩
  obtain ⟨front, hseg⟩ := hseg
  obtain ⟨place, -, rfl⟩ := exists_isSlot_of_walk hseg hname hw
  exact List.getLast?_concat

section Generation

variable {generation : Generation} (hplain : generation.HasPlainNames)

include hplain

theorem isWritten_of_write (directory : Path) (tree final : FileTree) :
    (∀ outcome, generation.write directory tree = (final, .ok outcome) →
      IsWritten directory tree final generation.artifacts outcome) ∧
    ∀ e, generation.write directory tree = (final, .error e) →
      ∃ k artifact outcome, generation.artifacts[k]? = some artifact ∧
        e = .writeFailure (artifact.pathIn directory) artifact.kind outcome.written ∧
        IsWritten directory tree final (generation.artifacts.take k) outcome := by
  obtain ⟨hname, hslash, hnodup⟩ := hplain
  unfold Generation.write
  cases hartifacts : generation.artifacts with
  | nil =>
    constructor
    · intro outcome hwrite
      obtain ⟨rfl, houtcome⟩ := Prod.mk.inj hwrite
      obtain rfl := Except.ok.inj houtcome
      exact isWritten_nil (.refl _ tree)
    · intro e hwrite
      cases hwrite
  | cons first rest =>
    rw [hartifacts] at hname hslash hnodup
    rw [writeArtifacts_cons]
    split
    · rename_i next result hwrite
      obtain ⟨place, hfirst⟩ := WrittenIn.of_first (hslash first List.mem_cons_self) hwrite
      obtain ⟨hok, herror⟩ := writtenIn_of_writeArtifacts hfirst (List.mem_singleton_self first)
        (fun other hmem ↦ hname other (List.mem_cons_of_mem _ hmem))
        (fun other hmem ↦ hslash other (List.mem_cons_of_mem _ hmem)) hnodup
      refine ⟨fun outcome hwrite ↦ (hok outcome hwrite).isWritten rfl, fun e hwrite ↦ ?_⟩
      obtain ⟨k, artifact, outcome, hk, he, hwritten⟩ := herror e hwrite
      exact ⟨k + 1, artifact, outcome, hk, he, hwritten.isWritten rfl⟩
    · rename_i next hwrite
      constructor
      · intro outcome hfail
        cases hfail
      · intro e hfail
        obtain ⟨rfl, he⟩ := Prod.mk.inj hfail
        exact ⟨0, first, {}, rfl, (Except.error.inj he).symm, isWritten_nil (later_of_write hwrite)⟩

theorem fileAt_of_mem_drop {k : Nat}
    (h : IsWritten directory tree final (generation.artifacts.take k) outcome)
    (hmem : artifact ∈ generation.artifacts.drop k)
    (hlocate : final.locate (artifact.pathIn directory) = .ok l) :
    final.fileAt l = tree.fileAt l := by
  refine h.framed l fun other hother heq ↦ ?_
  have hartifact := List.mem_of_mem_drop hmem
  have hother' := List.mem_of_mem_take hother
  have hlast := getLast?_of_locate_pathIn (hplain.isName _ hartifact)
    (hplain.slash_notMem _ hartifact) hlocate
  rw [getLast?_of_locate_pathIn (hplain.isName _ hother') (hplain.slash_notMem _ hother') heq]
    at hlast
  have hdisjoint : List.Disjoint (generation.artifacts.take k) (generation.artifacts.drop k) :=
    List.disjoint_take_drop (List.Nodup.of_map _ hplain.nodup) (Nat.le_refl k)
  obtain rfl := hplain.eq_of_fileName_eq hother' hartifact (Option.some.inj hlast)
  exact hdisjoint hother hmem

end Generation

/-- Writing files with plain names of their own, as those of an Objective-C run are, puts each of
them in place and changes no other file; where it fails it has done just that for the artifacts
before the one that it names. -/
theorem writing_is_framed {engine : Engine} {config : RunConfig} {units : List SourceUnit}
    {generation : Generation} (h : engine.generate config units = .ok generation)
    (hnames : engine.language = ObjectiveC.language ∨ generation.HasPlainNames)
    (directory : Path) (tree final : FileTree) :
    (∀ outcome, generation.write directory tree = (final, .ok outcome) →
      IsWritten directory tree final generation.artifacts outcome) ∧
    ∀ e, generation.write directory tree = (final, .error e) →
      ∃ k artifact outcome, generation.artifacts[k]? = some artifact ∧
        e = .writeFailure (artifact.pathIn directory) artifact.kind outcome.written ∧
        IsWritten directory tree final (generation.artifacts.take k) outcome ∧
        ∀ other ∈ generation.artifacts.drop k, ∀ l,
          final.locate (other.pathIn directory) = .ok l → final.fileAt l = tree.fileAt l := by
  have hplain : generation.HasPlainNames := by
    rcases hnames with hlanguage | hplain
    · obtain ⟨language, rules⟩ := engine
      obtain rfl : language = ObjectiveC.language := hlanguage
      exact ObjectiveC.hasPlainNames_of_generate h
    · exact hplain
  obtain ⟨hok, herror⟩ := isWritten_of_write hplain directory tree final
  refine ⟨hok, fun e hwrite ↦ ?_⟩
  obtain ⟨k, artifact, outcome, hk, he, hwritten⟩ := herror e hwrite
  exact ⟨k, artifact, outcome, hk, he, hwritten,
    fun other hmem l ↦ fileAt_of_mem_drop hplain hwritten hmem⟩

namespace ObjectiveC

def brand : List SourceUnit :=
  [{ key := "brand" }]

def brandConfig : RunConfig where
  input := ⟨"brand.toml"⟩

def brandHeader : String :=
  "//\n// This file is generated from brand.toml by duet.\n// Please do not edit.\n//\n\n" ++
    "@interface Brand : NSObject\n\n@end\n"

def brandImplementation : String :=
  "//\n// This file is generated from brand.toml by duet.\n// Please do not edit.\n//\n\n" ++
    "#import \"Brand.h\"\n\n@implementation Brand\n\n@end\n"

def brandFiles (definitionFile : String) : Generation where
  aggregate := false
  pairs := [{
    name := "Brand"
    units := ["Brand"]
    declaration := some ⟨.declaration, "Brand.h", brandHeader⟩
    definition := ⟨.definition, definitionFile, brandImplementation⟩ }]

theorem generate_brand : engine.generate brandConfig brand = .ok (brandFiles "Brand.m") := by
  decide +kernel

def cabinet (header : String) (implementation : Node) : FileTree where
  root := .directory [("x", .directory
    [("Brand.h", .file header.toUTF8), ("Brand.m", implementation)])]
  workingDirectory := []

theorem writing_is_framed_cabinet :
    (∃ final, (brandFiles "Brand.m").write ⟨"x"⟩ (cabinet brandHeader (.file "".toUTF8)) =
        (final, .ok { written := [⟨"x/Brand.m"⟩], unchanged := [⟨"x/Brand.h"⟩] }) ∧
      IsWritten ⟨"x"⟩ (cabinet brandHeader (.file "".toUTF8)) final
        (brandFiles "Brand.m").artifacts
        { written := [⟨"x/Brand.m"⟩], unchanged := [⟨"x/Brand.h"⟩] }) ∧
    ∃ final, (brandFiles "Brand.m").write ⟨"x"⟩ (cabinet "" (.directory [])) =
        (final, .error (.writeFailure ⟨"x/Brand.m"⟩ .definition [⟨"x/Brand.h"⟩])) ∧
      ∃ k outcome, outcome.written = [⟨"x/Brand.h"⟩] ∧
        IsWritten ⟨"x"⟩ (cabinet "" (.directory [])) final
          ((brandFiles "Brand.m").artifacts.take k) outcome := by
  constructor
  · have hwrite : ((brandFiles "Brand.m").write ⟨"x"⟩ (cabinet brandHeader (.file "".toUTF8))).2 =
        .ok { written := [⟨"x/Brand.m"⟩], unchanged := [⟨"x/Brand.h"⟩] } := by decide +kernel
    obtain ⟨hok, -⟩ := writing_is_framed generate_brand (.inl rfl) ⟨"x"⟩
      (cabinet brandHeader (.file "".toUTF8)) _
    exact ⟨_, Prod.ext rfl hwrite, hok _ (Prod.ext rfl hwrite)⟩
  · have hwrite : ((brandFiles "Brand.m").write ⟨"x"⟩ (cabinet "" (.directory []))).2 =
        .error (.writeFailure ⟨"x/Brand.m"⟩ .definition [⟨"x/Brand.h"⟩]) := by decide +kernel
    obtain ⟨-, herror⟩ := writing_is_framed generate_brand (.inl rfl) ⟨"x"⟩
      (cabinet "" (.directory [])) _
    obtain ⟨k, artifact, outcome, -, he, hframed, -⟩ := herror _ (Prod.ext rfl hwrite)
    exact ⟨_, Prod.ext rfl hwrite, k, outcome, (Error.writeFailure.inj he).2.2.symm, hframed⟩

/-- A language that gives both files of a pair one name. -/
def twins : Engine where
  language := { language with definitionExtension := "h" }
  rules := rules

def fullCabinet : FileTree :=
  cabinet brandHeader (.file brandImplementation.toUTF8)

/-- A file that holds its content counts as written when the way to it leads through a directory
that is only made to write it, and of two files with one name only the second holds its content. -/
theorem first_written_unread :
    (engine.generate brandConfig brand = .ok (brandFiles "Brand.m") ∧
      ((brandFiles "Brand.m").write ⟨"new/../x"⟩ fullCabinet).2 =
        .ok { written := [⟨"new/../x/Brand.h"⟩], unchanged := [⟨"new/../x/Brand.m"⟩] } ∧
      ∀ artifact ∈ (brandFiles "Brand.m").artifacts,
        ((brandFiles "Brand.m").write ⟨"new/../x"⟩ fullCabinet).1.locate
          (artifact.pathIn ⟨"new/../x"⟩) = .ok ["x", artifact.fileName] ∧
        fullCabinet.fileAt ["x", artifact.fileName] = some artifact.content.toUTF8) ∧
    twins.generate brandConfig brand = .ok (brandFiles "Brand.h") ∧
      ((brandFiles "Brand.h").write ⟨"x"⟩ fullCabinet).2 =
        .ok { written := [⟨"x/Brand.h"⟩], unchanged := [⟨"x/Brand.h"⟩] } ∧
      ((brandFiles "Brand.h").write ⟨"x"⟩ fullCabinet).1.file? ⟨"x/Brand.h"⟩ =
        some (["x", "Brand.h"], brandImplementation.toUTF8) ∧
      brandImplementation ≠ brandHeader := by
  refine ⟨⟨generate_brand, ?_⟩, ?_⟩
  all_goals decide +kernel

end ObjectiveC

end PairedSource
