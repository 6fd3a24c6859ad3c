import PairedSource.Proofs.FileTree.Detours
import PairedSource.Proofs.Include.LoadFrom

namespace PairedSource.Manifest

open Relation

variable {tree : FileTree} {searchPath : Option Path} {root : Path}
  {models : List (UnitModel Entry)}

theorem exists_file?_of_loadFrom (h : loadFrom tree searchPath root = .ok models) :
    ∃ location content, tree.file? root = some (location, content) := by
  cases hroot : tree.file? root with
  | none =>
    rw [loadFrom_of_file?_eq_none hroot] at h
    cases h
  | some found => exact ⟨found.1, found.2, rfl⟩

section Limit

variable (hlimit : SpelledWithinLimit tree searchPath root)

include hlimit

theorem exists_models_iff : (∃ models, loadFrom tree searchPath root = .ok models) ↔
    ∃ location content, tree.file? root = some (location, content) ∧
      ∀ a, ReflTransGen (Includes tree searchPath) location a →
        IsSound tree searchPath a ∧ ¬TransGen (Includes tree searchPath) a a := by
  constructor
  · intro h
    obtain ⟨models, h⟩ := h
    obtain ⟨location, content, hroot⟩ := exists_file?_of_loadFrom h
    obtain ⟨walk, hwalk⟩ := unfolds_of_loadFrom hlimit hroot h
    refine ⟨location, content, hroot, fun a ha ↦ ?_⟩
    obtain ⟨part, hpart, -⟩ := hwalk.exists_of_reachable ha
    exact ⟨hpart.isSound, hpart.not_transGen_self⟩
  · intro h
    obtain ⟨location, content, hroot, hall⟩ := h
    cases hload : loadFrom tree searchPath root with
    | ok models => exact ⟨models, rfl⟩
    | error e =>
      obtain ⟨a, ha, hfault⟩ := (fails_of_loadFrom hlimit hroot hload).exists_fault
      rcases hfault with hfault | hfault
      · exact absurd (hall a ha).1 hfault
      · exact absurd hfault (hall a ha).2

theorem exists_walk_of_loadFrom (hnamed : NamedWithinLimit tree searchPath root)
    (h : loadFrom tree searchPath root = .ok models) :
    ∃ location content walk, tree.file? root = some (location, content) ∧
      Unfolds tree searchPath [location] walk ∧ walk.eraseDups.Nodup ∧
      (∀ a, a ∈ walk.eraseDups ↔ ReflTransGen (Includes tree searchPath) location a) ∧
      models = walk.eraseDups.flatMap (modelsAt tree) := by
  obtain ⟨location, content, hroot⟩ := exists_file?_of_loadFrom h
  obtain ⟨walk, hwalk, hmodels⟩ := loads_of_loadFrom hlimit hnamed hroot h
  refine ⟨location, content, walk, hroot, hwalk, walk.nodup_eraseDups, fun a ↦ ?_, hmodels⟩
  rw [List.mem_eraseDups]
  constructor
  · intro ha
    obtain ⟨b, hb, hba⟩ := hwalk.reachable_of_mem ha
    rwa [List.mem_singleton.1 hb] at hba
  · intro ha
    obtain ⟨part, hpart, hsub⟩ := hwalk.exists_of_reachable ha
    exact hsub (hpart.subset (by simp))

theorem exists_cycle_of_loadFrom {including resolved : Path} {span : Option Span}
    (h : loadFrom tree searchPath root =
      .error (.invalidInput including (.includeCycle resolved) span)) :
    ∃ location a b, (tree.file? root).map Prod.fst = some location ∧
      (tree.file? including).map Prod.fst = some a ∧
      (tree.file? resolved).map Prod.fst = some b ∧
      ReflTransGen (Includes tree searchPath) location a ∧ Includes tree searchPath a b ∧
      ReflTransGen (Includes tree searchPath) b a := by
  cases hroot : tree.file? root with
  | none =>
    rw [loadFrom_of_file?_eq_none hroot] at h
    cases h
  | some found =>
    obtain ⟨a, b, ha, hb, hreach, hab, hback⟩ :=
      (fails_of_loadFrom hlimit hroot h).cycle including resolved span rfl
    exact ⟨found.1, a, b, rfl, ha, hb, hreach, hab, hback⟩

end Limit

/-- Loading a manifest works out exactly when every file that its includes lead to is in order, all
their includes are found, and no include leads back. If all files have absolute paths to know them
by, the models are then those of each file once, in the order in which the files are first met when
every file is followed by its includes. A cycle that is reported is one: the named file leads to
the file that includes it. -/
theorem load_exact (tree : FileTree) (searchPath : Option Path) (root : Path)
    (hlimit : SpelledWithinLimit tree searchPath root) :
    ((∃ models, loadFrom tree searchPath root = .ok models) ↔
      ∃ location content, tree.file? root = some (location, content) ∧
        ∀ a, ReflTransGen (Includes tree searchPath) location a →
          IsSound tree searchPath a ∧ ¬TransGen (Includes tree searchPath) a a) ∧
    (NamedWithinLimit tree searchPath root → ∀ models,
      loadFrom tree searchPath root = .ok models →
      ∃ location content walk, tree.file? root = some (location, content) ∧
        Unfolds tree searchPath [location] walk ∧ walk.eraseDups.Nodup ∧
        (∀ a, a ∈ walk.eraseDups ↔ ReflTransGen (Includes tree searchPath) location a) ∧
        models = walk.eraseDups.flatMap (modelsAt tree)) ∧
    ∀ including resolved span, loadFrom tree searchPath root =
        .error (.invalidInput including (.includeCycle resolved) span) →
      ∃ location a b, (tree.file? root).map Prod.fst = some location ∧
        (tree.file? including).map Prod.fst = some a ∧
        (tree.file? resolved).map Prod.fst = some b ∧
        ReflTransGen (Includes tree searchPath) location a ∧ Includes tree searchPath a b ∧
        ReflTransGen (Includes tree searchPath) b a :=
  ⟨exists_models_iff hlimit, fun hnamed _ h ↦ exists_walk_of_loadFrom hlimit hnamed h,
    fun _ _ _ h ↦ exists_cycle_of_loadFrom hlimit h⟩

/-- Two files that include a third one, which one of them spells in its own way. -/
def diamond : FileTree where
  root := .directory [
    ("root.toml", .file "include = [\"left.toml\", \"right.toml\"]\n".toUTF8),
    ("left.toml", .file "include = [\"base.toml\"]\n[units.left]\n".toUTF8),
    ("right.toml", .file "include = [\"./base.toml\"]\n[units.right]\n".toUTF8),
    ("base.toml", .file "[units.base]\n".toUTF8)]
  workingDirectory := []

def diamondStops : List Stop :=
  [⟨⟨"root.toml"⟩, ["root.toml"]⟩, ⟨⟨"left.toml"⟩, ["left.toml"]⟩,
    ⟨⟨"right.toml"⟩, ["right.toml"]⟩, ⟨⟨"base.toml"⟩, ["base.toml"]⟩,
    ⟨⟨"./base.toml"⟩, ["base.toml"]⟩]

theorem load_exact_diamond : SpelledWithinLimit diamond none ⟨"root.toml"⟩ ∧
    NamedWithinLimit diamond none ⟨"root.toml"⟩ ∧
    ∃ models, loadFrom diamond none ⟨"root.toml"⟩ = .ok models ∧
      models.map UnitModel.key = ["left", "base", "right"] := by
  have hlimit : SpelledWithinLimit diamond none ⟨"root.toml"⟩ :=
    spelledWithinLimit_of_everyInclude diamondStops (by decide +kernel) (by decide +kernel)
      (by decide +kernel)
  have hnamed : NamedWithinLimit diamond none ⟨"root.toml"⟩ :=
    namedWithinLimit_of_all diamondStops (by decide +kernel) (by decide +kernel)
      (by decide +kernel)
  have hbase : readAt diamond ["base.toml"] =
      some (⟨[], [("base", {})]⟩, [{ key := "base" }]) := by decide +kernel
  have hleft : readAt diamond ["left.toml"] =
      some (⟨["base.toml"], [("left", {})]⟩, [{ key := "left" }]) := by decide +kernel
  have hright : readAt diamond ["right.toml"] =
      some (⟨["./base.toml"], [("right", {})]⟩, [{ key := "right" }]) := by decide +kernel
  have hroot : readAt diamond ["root.toml"] =
      some (⟨["left.toml", "right.toml"], []⟩, []) := by decide +kernel
  have hwalkBase : Unfolds diamond none [["base.toml"]] (["base.toml"] :: [] ++ []) :=
    .cons hbase rfl .nil .nil
  have hwalkLeft : Unfolds diamond none [["left.toml"]]
      (["left.toml"] :: [["base.toml"]] ++ []) :=
    .cons hleft (by decide +kernel) hwalkBase .nil
  have hwalkRight : Unfolds diamond none [["right.toml"]]
      (["right.toml"] :: [["base.toml"]] ++ []) :=
    .cons hright (by decide +kernel) hwalkBase .nil
  have hwalk : Unfolds diamond none [["root.toml"]] (["root.toml"] ::
      [["left.toml"], ["base.toml"], ["right.toml"], ["base.toml"]] ++ []) :=
    .cons hroot (by decide +kernel) (hwalkLeft.append hwalkRight) .nil
  obtain ⟨hiff, horder, -⟩ := load_exact diamond none ⟨"root.toml"⟩ hlimit
  obtain ⟨models, h⟩ := hiff.2 ⟨["root.toml"], _, rfl, fun a ha ↦ by
    obtain ⟨part, hpart, -⟩ := hwalk.exists_of_reachable ha
    exact ⟨hpart.isSound, hpart.not_transGen_self⟩⟩
  obtain ⟨location, content, walk, hfile, hwalk', -, -, hmodels⟩ := horder hnamed models h
  obtain rfl : ["root.toml"] = location := (Prod.mk.inj (Option.some.inj hfile)).1
  refine ⟨hlimit, hnamed, models, h, ?_⟩
  rw [hmodels, hwalk'.unique hwalk]
  decide +kernel

section LongSpelling

/-- A file with a short name that includes one with a longer name. -/
def neighbours : FileTree where
  root := .directory [
    ("x", .directory []),
    ("a.toml", .file "include = [\"branding.toml\"]\n[units.a]\n".toUTF8),
    ("branding.toml", .file "[units.brand]\n".toUTF8)]
  workingDirectory := []

def longSpelling : Path :=
  ⟨"/".intercalate (FileTree.detours 817 ++ ["a.toml"])⟩

theorem longSpelling_eq : longSpelling = FileTree.afterDetours 816 "a.toml" := rfl

theorem file?_longSpelling :
    ∃ content, neighbours.file? longSpelling = some (["a.toml"], content) := by
  have hadmissible : FileTree.isAdmissible (FileTree.afterDetours 816 "a.toml") = true :=
    FileTree.isAdmissible_afterDetours 816 (by decide) (by decide)
  have hstart : neighbours.start (FileTree.afterDetours 816 "a.toml") = [] := by
    unfold FileTree.start
    split <;> rfl
  rw [longSpelling_eq]
  refine ⟨_, FileTree.file?_eq_some_iff.2 ⟨hadmissible, ?_, rfl⟩⟩
  rw [FileTree.segments_afterDetours 816 (by decide), FileTree.walk_append, hstart,
    FileTree.walk_detours_of_isDirectory (a := []) rfl rfl]
  rfl

/-- The include is found next to the file, but not by the path that is spelled for it. -/
theorem firstFile?_longSpelling (text : String) :
    firstFile? neighbours (candidates none ⟨longSpelling, text⟩ "branding.toml") = none := by
  have hparent : longSpelling.parent? = some ⟨"/".intercalate (FileTree.detours 817)⟩ :=
    FileTree.parent?_afterDetours 816 (by decide) (by decide) (by decide)
  have hlong : FileTree.maxPathLength <
      (SourceText.relative ⟨longSpelling, text⟩ "branding.toml").text.utf8ByteSize := by
    have hrelative : (Path.mk "branding.toml").isAbsolute = false := by decide
    rw [SourceText.relative, hparent, Option.getD_some]
    exact Nat.lt_of_lt_of_le (by decide) (FileTree.utf8ByteSize_le_join_detours 816 hrelative)
  have hnone :
      neighbours.file? (SourceText.relative ⟨longSpelling, text⟩ "branding.toml") = none := by
    rw [FileTree.file?_eq, if_neg]
    rw [FileTree.isAdmissible_iff]
    omega
  simp [firstFile?, candidates, hnone]

theorem fails_for_longSpelling :
    (neighbours.file? longSpelling).map Prod.fst = some ["a.toml"] ∧
      (∀ a, ReflTransGen (Includes neighbours none) ["a.toml"] a →
        IsSound neighbours none a ∧ ¬TransGen (Includes neighbours none) a a) ∧
      ¬∃ models, loadFrom neighbours none longSpelling = .ok models := by
  obtain ⟨content, hfile⟩ := file?_longSpelling
  have hread : readAt neighbours ["a.toml"] =
      some (⟨["branding.toml"], [("a", {})]⟩, [{ key := "a" }]) := by decide +kernel
  have hbranding : readAt neighbours ["branding.toml"] =
      some (⟨[], [("brand", {})]⟩, [{ key := "brand" }]) := by decide +kernel
  have hwalk : Unfolds neighbours none [["a.toml"]]
      (["a.toml"] :: (["branding.toml"] :: [] ++ []) ++ []) :=
    .cons hread (by decide +kernel) (.cons hbranding rfl .nil .nil) .nil
  refine ⟨by rw [hfile]; rfl, fun a ha ↦ ?_, ?_⟩
  · obtain ⟨part, hpart, -⟩ := hwalk.exists_of_reachable ha
    exact ⟨hpart.isSound, hpart.not_transGen_self⟩
  · intro h
    obtain ⟨models, h⟩ := h
    simp only [loadFrom_eq hfile, Except.bind_eq_ok_iff] at h
    obtain ⟨⟨⟨path, text⟩, manifest, own⟩, hown, ⟨nested, loaded⟩, hnested, -⟩ := h
    obtain ⟨hpath, hsome⟩ := readAt_of_readFile (FileTree.file?_eq_some_iff.1 hfile).2.2 hown
    obtain ⟨rfl, -⟩ := Prod.mk.inj (Option.some.inj (hread.symm.trans hsome))
    obtain rfl : path = longSpelling := hpath
    rw [loadIncludes_missing (firstFile?_longSpelling text)] at hnested
    cases hnested

end LongSpelling

section LongName

def nested (node : Node) : Nat → Node
  | 0 => node
  | depth + 1 => .directory [("d", nested node depth)]

theorem find?_nested (node : Node) (depth : Nat) (location : Location) :
    (nested node depth).find? (List.replicate depth "d" ++ location) = node.find? location := by
  induction depth with
  | zero => rfl
  | succ depth ih => rw [List.replicate_succ, List.cons_append, nested, Node.find?]; exact ih

def burrowRoot : ByteArray :=
  "include = [\"b.toml\", \"x/../b.toml\"]\n".toUTF8

def burrowPart : ByteArray :=
  "[units.b]\n".toUTF8

def burrowEnd : List (String × Node) :=
  [("x", .directory []), ("root.toml", .file burrowRoot), ("b.toml", .file burrowPart)]

variable (depth : Nat)

/-- A working directory at some depth, with a few files in it. -/
def burrow : FileTree where
  root := nested (.directory burrowEnd) depth
  workingDirectory := List.replicate depth "d"

def inBurrow (name : String) : Location :=
  (burrow depth).workingDirectory ++ [name]

variable {depth}

theorem find?_burrow (location : Location) :
    (burrow depth).root.find? ((burrow depth).workingDirectory ++ location) =
      (Node.directory burrowEnd).find? location :=
  find?_nested _ _ _

theorem fileAt_burrow {name : String} {content : ByteArray}
    (h : burrowEnd.lookup name = some (.file content)) :
    (burrow depth).fileAt (inBurrow depth name) = some content := by
  rw [FileTree.fileAt_eq_some_iff, inBurrow, find?_burrow, Node.find?, h]
  rfl

section Walking

theorem step_burrow {s : String} {node : Node} (h : burrowEnd.lookup s = some node)
    (hs : FileTree.isName s = true) :
    (burrow depth).step (burrow depth).workingDirectory s = .ok (inBurrow depth s) := by
  have hdir : (burrow depth).root.find? ((burrow depth).workingDirectory ++ []) = _ :=
    find?_burrow []
  rw [List.append_nil] at hdir
  rw [FileTree.step_name hdir hs, h]
  rfl

theorem walk_detour_burrow (segments : List String) :
    (burrow depth).walk (burrow depth).workingDirectory ("x" :: ".." :: segments) =
      (burrow depth).walk (burrow depth).workingDirectory segments := by
  have hinto : (burrow depth).step (burrow depth).workingDirectory "x" = _ :=
    step_burrow rfl (by decide)
  have hback : (burrow depth).step (inBurrow depth "x") ".." =
      .ok (burrow depth).workingDirectory := by
    rw [inBurrow, FileTree.step_of_directory (find?_burrow ["x"]), if_neg (by decide),
      if_pos rfl, List.dropLast_concat]
  rw [FileTree.walk_cons, hinto, Except.ok_bind, FileTree.walk_cons, hback, Except.ok_bind]

theorem nameLength_burrow (name : String) :
    FileTree.nameLength (inBurrow depth name) = 2 * depth + name.utf8ByteSize + 1 := by
  have hname : "d".utf8ByteSize = 1 := rfl
  rw [inBurrow, FileTree.nameLength_append, burrow, FileTree.nameLength_replicate, hname]
  simp only [FileTree.nameLength]
  omega

theorem file?_burrow (hdepth : 2048 ≤ depth) {p : Path} {name : String} {content : ByteArray}
    (hp : FileTree.isAdmissible p = true) (habs : p.isAbsolute = false)
    (hsegments : p.segments = [name] ∨ p.segments = ["x", "..", name])
    (h : burrowEnd.lookup name = some (.file content)) (hname : FileTree.isName name = true) :
    (burrow depth).file? p = some (inBurrow depth name, content) ∧
      (burrow depth).identity p = .spelled p.components := by
  have hstart : (burrow depth).start p = (burrow depth).workingDirectory := by
    rw [FileTree.start, habs]
    rfl
  have hwalk : (burrow depth).walk (burrow depth).workingDirectory p.segments =
      .ok (inBurrow depth name) := by
    rcases hsegments with hsegments | hsegments
    · rw [hsegments, FileTree.walk_singleton, step_burrow h hname]
    · rw [hsegments, walk_detour_burrow, FileTree.walk_singleton, step_burrow h hname]
  have hfile : (burrow depth).file? p = some (inBurrow depth name, content) :=
    FileTree.file?_eq_some_iff.2 ⟨hp, hstart ▸ hwalk, fileAt_burrow h⟩
  have hlong : ∀ s slash, ¬FileTree.nameLength ((burrow depth).workingDirectory ++ [s]) + slash ≤
      FileTree.maxPathLength := by
    intro s slash
    have hlength : FileTree.nameLength (inBurrow depth s) = _ := nameLength_burrow s
    rw [inBurrow] at hlength
    rw [hlength, FileTree.maxPathLength]
    omega
  obtain ⟨hempty, hdot, hup⟩ := FileTree.isName_iff.1 hname
  have hunnamed : FileTree.isNameable (burrow depth).workingDirectory p.segments = false := by
    rcases hsegments with hsegments | hsegments
    · simp only [hsegments, FileTree.isNameable, hempty, hdot, hup, or_self, if_false, hlong,
        decide_false, Bool.false_and]
    · simp [hsegments, FileTree.isNameable, hlong]
  rw [FileTree.identity_of_file? hfile, hstart, hunnamed]
  exact ⟨hfile, rfl⟩

end Walking

theorem readAt_burrow :
    readAt (burrow depth) (inBurrow depth "root.toml") =
        some (⟨["b.toml", "x/../b.toml"], []⟩, []) ∧
      readAt (burrow depth) (inBurrow depth "b.toml") =
        some (⟨[], [("b", {})]⟩, [{ key := "b" }]) := by
  have hroot : readAt (burrow depth) (inBurrow depth "root.toml") =
      (readFile ⟨"root.toml"⟩ burrowRoot).toOption.map Prod.snd := readAt_eq (fileAt_burrow rfl)
  have hpart : readAt (burrow depth) (inBurrow depth "b.toml") =
      (readFile ⟨"b.toml"⟩ burrowPart).toOption.map Prod.snd := readAt_eq (fileAt_burrow rfl)
  rw [hroot, hpart]
  decide +kernel

section Loading

variable (hdepth : 2048 ≤ depth)

include hdepth

theorem file?_burrow_root :
    (burrow depth).file? ⟨"root.toml"⟩ = some (inBurrow depth "root.toml", burrowRoot) ∧
      (burrow depth).identity ⟨"root.toml"⟩ = .spelled [.name "root.toml"] :=
  file?_burrow hdepth (by decide) (by decide) (.inl (by decide)) rfl (by decide)

variable {target : String} (htarget : target = "b.toml" ∨ target = "x/../b.toml")
  (text : String)

include htarget

theorem file?_burrow_part :
    (burrow depth).file? ⟨target⟩ = some (inBurrow depth "b.toml", burrowPart) ∧
      (burrow depth).identity ⟨target⟩ = .spelled (Path.mk target).components := by
  rcases htarget with rfl | rfl
  · exact file?_burrow hdepth (by decide) (by decide) (.inl (by decide)) rfl (by decide)
  · exact file?_burrow hdepth (by decide) (by decide) (.inr (by decide)) rfl (by decide)

theorem next_burrow : (burrow depth).file? (SourceText.relative ⟨⟨"root.toml"⟩, text⟩ target) =
      some (inBurrow depth "b.toml", burrowPart) ∧
    firstFile? (burrow depth) (candidates none ⟨⟨"root.toml"⟩, text⟩ target) =
      some (⟨target⟩, inBurrow depth "b.toml", burrowPart) := by
  have hfile := (file?_burrow_part hdepth htarget).1
  have hparent : (Path.mk "root.toml").parent?.getD ⟨""⟩ = ⟨""⟩ := by decide
  have hnext : SourceText.relative ⟨⟨"root.toml"⟩, text⟩ target = ⟨target⟩ := by
    simp only [SourceText.relative, hparent]
    rcases htarget with rfl | rfl <;> decide
  rw [hnext]
  exact ⟨hfile, by rw [firstFile?_of_file? (hnext ▸ hfile), hnext]⟩

omit htarget in
theorem unfolds_burrow : Unfolds (burrow depth) none [inBurrow depth "root.toml"]
    [inBurrow depth "root.toml", inBurrow depth "b.toml", inBurrow depth "b.toml"] := by
  have hpart : Unfolds (burrow depth) none [inBurrow depth "b.toml"] [inBurrow depth "b.toml"] :=
    .cons readAt_burrow.2 rfl .nil .nil
  have hresolve : ∀ target, target = "b.toml" ∨ target = "x/../b.toml" →
      resolve (burrow depth) none (inBurrow depth "root.toml") target =
        some (inBurrow depth "b.toml") := by
    intro target htarget
    have hroot : (burrow depth).file? (SourceText.mk ⟨"root.toml"⟩ "").path = _ :=
      (file?_burrow_root hdepth).1
    exact resolve_of_file? hroot (next_burrow hdepth htarget "").1
  refine .cons readAt_burrow.1 ?_ (hpart.append hpart) .nil
  simp [hresolve]

omit htarget in
theorem loadFrom_burrow : loadFrom (burrow depth) none ⟨"root.toml"⟩ =
    .ok [{ key := "b" }, { key := "b" }] := by
  obtain ⟨hroot, hrootId⟩ := file?_burrow_root hdepth
  have hcontent := (FileTree.file?_eq_some_iff.1 hroot).2.2
  obtain ⟨⟨path, text⟩, hpath, hrootRead⟩ :=
    exists_readFile hcontent readAt_burrow.1 ⟨"root.toml"⟩
  obtain rfl : path = ⟨"root.toml"⟩ := hpath
  have hpart : (burrow depth).fileAt (inBurrow depth "b.toml") = _ := fileAt_burrow rfl
  have hread := exists_readFile hpart readAt_burrow.2
  have hfirst := (next_burrow hdepth (.inl rfl) text).2
  have hsecond := (next_burrow hdepth (.inr rfl) text).2
  have hfirstId := (file?_burrow_part hdepth (.inl rfl)).2
  have hsecondId := (file?_burrow_part hdepth (.inr rfl)).2
  obtain ⟨first, -, hfirstRead⟩ := hread ⟨"b.toml"⟩
  obtain ⟨second, -, hsecondRead⟩ := hread ⟨"x/../b.toml"⟩
  rw [loadFrom_eq hroot, hrootRead, Except.ok_bind, hrootId]
  simp only
  rw [loadIncludes_new hfirst (by rw [hfirstId]; decide) (by rw [hfirstId]; decide), hfirstRead,
    Except.ok_bind, hfirstId]
  simp only
  rw [loadIncludes, Except.ok_bind]
  simp only
  rw [loadIncludes_new hsecond (by rw [hsecondId]; decide) (by rw [hsecondId]; decide),
    hsecondRead, Except.ok_bind, hsecondId]
  simp only
  rw [loadIncludes, Except.ok_bind]
  simp only
  rw [loadIncludes]
  rfl

omit htarget in
/-- A file with two spellings and no absolute path is taken for two files. -/
theorem loads_twice_in_burrow : ∃ models walk,
    loadFrom (burrow depth) none ⟨"root.toml"⟩ = .ok models ∧
      Unfolds (burrow depth) none [inBurrow depth "root.toml"] walk ∧
      models.map UnitModel.key = ["b", "b"] ∧
      (walk.eraseDups.flatMap (modelsAt (burrow depth))).map UnitModel.key = ["b"] := by
  refine ⟨_, _, loadFrom_burrow hdepth, unfolds_burrow hdepth, by decide, ?_⟩
  have hne : inBurrow depth "b.toml" ≠ inBurrow depth "root.toml" := by simp [inBurrow]
  simp [List.eraseDups_cons, hne, modelsAt, readAt_burrow]

end Loading

end LongName

theorem load_inexact_beyond_limits :
    ((neighbours.file? longSpelling).map Prod.fst = some ["a.toml"] ∧
      (∀ a, ReflTransGen (Includes neighbours none) ["a.toml"] a →
        IsSound neighbours none a ∧ ¬TransGen (Includes neighbours none) a a) ∧
      ¬∃ models, loadFrom neighbours none longSpelling = .ok models) ∧
    ∃ models walk, loadFrom (burrow 2048) none ⟨"root.toml"⟩ = .ok models ∧
      Unfolds (burrow 2048) none [inBurrow 2048 "root.toml"] walk ∧
      models.map UnitModel.key = ["b", "b"] ∧
      (walk.eraseDups.flatMap (modelsAt (burrow 2048))).map UnitModel.key = ["b"] :=
  ⟨fails_for_longSpelling, loads_twice_in_burrow (Nat.le_refl 2048)⟩

end PairedSource.Manifest
