import PairedSource.Proofs.Assembly.Contents
import PairedSource.Proofs.Concurrent.Overlay
import PairedSource.Proofs.Concurrent.Running

namespace PairedSource

open FileTree Manifest Progress
open ObjectiveC (IsGenerated)

variable {config : RunConfig} {generation generation' : Generation} {tree now now' : FileTree}
  {progress progress' : Progress} {loading : Loading} {frame : Frame} {path : Path}

variable (tree) in
/-- What counts as loaded is a file that was there first. -/
def Knows (loaded : List Identity) : Prop :=
  ∀ identity ∈ loaded, ∃ path, (tree.file? path).isSome = true ∧ identity = tree.identity path

theorem knows_nil (tree : FileTree) : Knows tree [] := by
  intro identity hmem
  cases hmem

theorem Knows.cons {loaded : List Identity} (h : Knows tree loaded)
    (hfile : (tree.file? path).isSome = true) : Knows tree (tree.identity path :: loaded) := by
  intro identity hmem
  rcases List.mem_cons.1 hmem with rfl | hmem
  · exact ⟨path, hfile, rfl⟩
  · exact h identity hmem

variable (tree) in
/-- A run that is still loading and has met nothing but the first files. -/
inductive Faithful : Progress → Prop
  | opening : Faithful .opening
  | entering {loading : Loading} {source : SourceText} (targets : List String) :
      Knows tree loading.loaded → (tree.file? source.path).isSome = true →
      Faithful (.entering loading source targets)
  | looking {loading : Loading} (frame : Frame) (target : String) (path : Path)
      (others : List Path) :
      Knows tree loading.loaded → Faithful (.looking loading frame target path others)
  | identifying {loading : Loading} {path : Path} (frame : Frame) (target : String) :
      Knows tree loading.loaded → (tree.file? path).isSome = true →
      Faithful (.identifying loading frame target path)
  | including {loading : Loading} (frame : Frame) (path : Path) :
      Knows tree loading.loaded → Faithful (.including loading frame path)

variable (now) in
/-- A run that is about to read a generated file as a manifest. -/
inductive Misled : Progress → Prop
  | identifying {loading : Loading} {path : Path} {location : Location} {content : ByteArray}
      (frame : Frame) (target : String) :
      now.file? path = some (location, content) → IsGenerated content →
      .found location ∉ loading.loaded → .spelled path.components ∉ loading.loaded →
      Misled (.identifying loading frame target path)
  | including {path : Path} {location : Location} {content : ByteArray} (loading : Loading)
      (frame : Frame) :
      now.file? path = some (location, content) → IsGenerated content →
      Misled (.including loading frame path)

def Progress.writing? : Progress → Option Writing
  | .comparing writing | .preparing writing | .placing writing => some writing
  | _ => none

def Heads (tree : FileTree) (config : RunConfig) (generation : Generation) (progress : Progress) :
    Prop :=
  Reaches config (fun _ ↦ True) tree progress tree (emit config (.ok generation))

/-- A run that writes nothing but the artifacts of a generation, whatever it meets from now on. -/
inductive Bound (tree now : FileTree) (config : RunConfig) (generation : Generation) :
    Progress → Prop
  | loading {progress : Progress} : Faithful tree progress →
      Heads tree config generation progress → Bound tree now config generation progress
  | misled {progress : Progress} : Misled now progress → Bound tree now config generation progress
  | writing {progress : Progress} {writing : Writing} : progress.writing? = some writing →
      (∀ artifact ∈ writing.artifact :: writing.others, artifact ∈ generation.artifacts) →
      Bound tree now config generation progress
  | finished (result : Except Error RunReport) :
      Bound tree now config generation (.finished result)

theorem Misled.keeps (h : Misled now progress) (hkeeps : Keeps IsGenerated now now') :
    Misled now' progress := by
  cases h with
  | identifying frame target hfile hcontent hfound hspelled =>
    obtain ⟨content, hfile, hcontent⟩ := hkeeps _ _ _ hfile hcontent
    exact .identifying frame target hfile hcontent hfound hspelled
  | including loading frame hfile hcontent =>
    obtain ⟨content, hfile, hcontent⟩ := hkeeps _ _ _ hfile hcontent
    exact .including loading frame hfile hcontent

theorem Bound.keeps (h : Bound tree now config generation progress)
    (hkeeps : Keeps IsGenerated now now') : Bound tree now' config generation progress := by
  cases h with
  | loading hfaithful hheads => exact .loading hfaithful hheads
  | misled hmisled => exact .misled (hmisled.keeps hkeeps)
  | writing hwriting hall => exact .writing hwriting hall
  | finished result => exact .finished result

section Emitting

/-- A run that writes a generation, or has reported on it. -/
def Belongs (config : RunConfig) (generation : Generation) : Progress → Prop
  | .comparing writing | .preparing writing | .placing writing => writing.generation = generation
  | .finished (.ok report) =>
    report.artifacts = generation.artifacts.map (·.pathIn config.outputDir)
  | .finished (.error _) => True
  | _ => False

theorem belongs_write (outcome : WriteOutcome) (artifacts : List Artifact) :
    Belongs config generation (write config generation outcome artifacts) := by
  cases artifacts <;> rfl

theorem belongs_next {request : Request} {next : request.Answer → Progress}
    (h : action config progress = .ask request next) (hb : Belongs config generation progress)
    (answer : request.Answer) : Belongs config generation (next answer) := by
  have hproceed : ∀ writing : Writing, writing.generation = generation → ∀ result,
      Belongs config generation (proceed config writing result) := by
    rintro writing rfl result
    exact belongs_write _ _
  cases progress with
  | comparing writing =>
    cases h
    simp only
    split
    · exact hproceed writing hb _
    · exact hb
  | preparing writing =>
    cases h
    cases answer with
    | true => exact hb
    | false => trivial
  | placing writing =>
    cases h
    cases answer with
    | true => exact hproceed writing hb _
    | false => trivial
  | finished result => cases h
  | _ => cases hb

theorem belongs_of_alone {allowed : Request → Prop} {n : Nat} {tree' : FileTree}
    (h : Alone config allowed tree progress n tree' progress')
    (hb : Belongs config generation progress) : Belongs config generation progress' := by
  induction h with
  | nil => exact hb
  | cons haction _ _ ih => exact ih (belongs_next haction hb _)

theorem artifacts_eq_of_heads (h : Heads tree config generation (emit config (.ok generation'))) :
    generation'.artifacts = generation.artifacts := by
  obtain ⟨n, halone⟩ := h
  have hstart : Belongs config generation' (emit config (.ok generation')) := belongs_write {} _
  have hb := belongs_of_alone halone hstart
  rw [emit] at hb
  cases hartifacts : generation.artifacts with
  | nil =>
    rw [hartifacts] at hb
    have hmap : generation.artifacts.map (·.pathIn config.outputDir) =
        generation'.artifacts.map (·.pathIn config.outputDir) := hb
    rw [hartifacts] at hmap
    exact List.map_eq_nil_iff.1 hmap.symm
  | cons artifact others =>
    rw [hartifacts] at hb
    obtain rfl : generation = generation' := hb
    exact hartifacts

theorem bound_write (outcome : WriteOutcome) {artifacts : List Artifact}
    (h : ∀ artifact ∈ artifacts, artifact ∈ generation.artifacts) :
    Bound tree now config generation (write config generation' outcome artifacts) := by
  cases artifacts with
  | nil => exact .finished _
  | cons artifact others => exact .writing rfl h

end Emitting

section Loading

def Onward (tree : FileTree) (config : RunConfig) (progress : Progress) : Prop :=
  Faithful tree progress ∨ ∃ result, progress = emit config result

theorem not_faithful_emit (result : Except Error Generation) :
    ¬Faithful tree (emit config result) := by
  intro h
  cases result with
  | error e => cases h
  | ok generation =>
    rw [emit] at h
    cases hartifacts : generation.artifacts with
    | nil =>
      rw [hartifacts] at h
      cases h
    | cons artifact others =>
      rw [hartifacts] at h
      cases h

theorem onward_look (frame : Frame) (target : String) (paths : List Path)
    (h : Knows tree loading.loaded) :
    Onward tree config (look config loading frame target paths) := by
  cases paths with
  | nil => exact .inr ⟨.error _, rfl⟩
  | cons path others => exact .inl (.looking frame target path others h)

theorem onward_follow (models : List (UnitModel Entry)) {loaded : List Identity}
    (frames : List Frame) (h : Knows tree loaded) :
    Onward tree config (follow config models loaded frames) := by
  induction frames with
  | nil => exact .inr ⟨_, rfl⟩
  | cons frame frames ih =>
    obtain ⟨source, identity, targets⟩ := frame
    cases targets with
    | nil => exact ih
    | cons target targets => exact onward_look _ target _ h

theorem onward_identify (frame : Frame) (target : String) (path : Path) (identity : Identity)
    (h : Knows tree loading.loaded) :
    Onward tree config (identify config loading frame target path identity) := by
  unfold identify
  split
  · exact .inr ⟨.error _, rfl⟩
  · split
    · exact onward_follow _ _ h
    · exact .inl (.including frame path h)

theorem onward_enter {location : Location} {content : ByteArray}
    (h : Knows tree loading.loaded) (hfile : tree.file? path = some (location, content)) :
    Onward tree config (enter loading path content) := by
  cases hread : readFile path content with
  | error e => exact .inr ⟨.error e, by simp only [enter, hread]; rfl⟩
  | ok found =>
    obtain ⟨source, manifest, models⟩ := found
    have hpath := (readAt_of_readFile (file?_eq_some_iff.1 hfile).2.2 hread).1
    simp only [enter, hread]
    exact .inl (.entering _ h (by rw [hpath, hfile]; rfl))

theorem bound_of_onward (h : Onward tree config progress)
    (hheads : Heads tree config generation progress) :
    Bound tree now config generation progress := by
  rcases h with h | ⟨result, rfl⟩
  · exact .loading h hheads
  · cases result with
    | error e => exact .finished _
    | ok generation' =>
      have heq := artifacts_eq_of_heads hheads
      exact bound_write _ fun artifact hmem ↦ heq ▸ hmem

variable {request : Request} {next : request.Answer → Progress}

theorem Faithful.heads_next (h : Faithful tree progress)
    (hheads : Heads tree config generation progress)
    (haction : action config progress = .ask request next)
    (hserve : (tree.serve request).1 = tree) :
    Heads tree config generation (next (tree.serve request).2) := by
  obtain ⟨n, halone⟩ := hheads
  generalize hgoal : emit config (.ok generation) = goal at halone
  cases halone with
  | nil =>
    -- A run that still loads has not come that far.
    subst hgoal
    exact absurd h (not_faithful_emit _)
  | @cons _ _ _ _ _ _ n haction' _ hrest =>
    obtain ⟨rfl, hnext⟩ := Action.ask.inj (haction.symm.trans haction')
    obtain rfl := eq_of_heq hnext
    subst hgoal
    rw [hserve] at hrest
    exact ⟨n, hrest⟩

theorem enter_of_isGenerated {content : ByteArray} (h : IsGenerated content) (loading : Loading)
    (path : Path) : ∃ e, enter loading path content = .finished (.error e) := by
  obtain ⟨e, hread⟩ := ObjectiveC.exists_error_of_isGenerated h path
  exact ⟨e, by simp only [enter, hread]⟩

variable (hover : Overlays IsGenerated now tree)

include hover

theorem bound_read (path : Path) (next : Option ByteArray → Progress)
    (hknows : Knows tree loading.loaded)
    (hnext : (∀ content, next (some content) = enter loading path content) ∧
      ∃ result, next none = .finished result)
    (hheads : Heads tree config generation (next (tree.serve (.read path)).2)) :
    Bound tree now config generation (next (now.serve (.read path)).2) := by
  rcases hover.file?_eq_or path with hsame | ⟨location, content, hfile, hcontent⟩
  · rw [serve_read hsame]
    rw [serve_read rfl] at hheads
    cases hfile : tree.file? path with
    | none =>
      obtain ⟨result, hresult⟩ := hnext.2
      exact hresult ▸ .finished result
    | some found =>
      obtain ⟨location, content⟩ := found
      rw [hfile] at hheads
      have honward : Onward tree config (next (some content)) := by
        rw [hnext.1]
        exact onward_enter hknows hfile
      exact bound_of_onward honward hheads
  · obtain ⟨e, henter⟩ := enter_of_isGenerated hcontent loading path
    rw [serve_read hfile]
    exact (hnext.1 content).trans henter ▸ .finished (.error e)

theorem notMem_of_new {loaded : List Identity} {location : Location} {content : ByteArray}
    (hknows : Knows tree loaded) (hnow : now.file? path = some (location, content))
    (hfile : tree.file? path = none) :
    .found location ∉ loaded ∧ .spelled path.components ∉ loaded := by
  have hold : ∀ p found, tree.file? p = some found → found.1 ≠ location := by
    rintro p ⟨place, content'⟩ hp rfl
    have hnone := hover.fileAt_eq_none hnow hfile
    rw [(file?_eq_some_iff.1 hp).2.2] at hnone
    cases hnone
  constructor
  · intro hmem
    obtain ⟨p, hp, hidentity⟩ := hknows _ hmem
    obtain ⟨found, hp⟩ := Option.isSome_iff_exists.1 hp
    rw [identity_of_file? hp] at hidentity
    split at hidentity
    · exact hold p found hp (Identity.found.inj hidentity).symm
    · cases hidentity
  · intro hmem
    obtain ⟨p, hp, hidentity⟩ := hknows _ hmem
    obtain ⟨found, hp⟩ := Option.isSome_iff_exists.1 hp
    rw [identity_of_file? hp] at hidentity
    split at hidentity
    · cases hidentity
    · have hsame : p.Same path := (Identity.spelled.inj hidentity).symm
      exact hold p found hp (location_eq_of_same hsame hover.workingDirectory.symm hp hnow)

/-- Where it gets the answers that the first files give, a run goes on as with these; where a file
is new, it is misled. -/
theorem Faithful.bound_next (h : Faithful tree progress)
    (hheads : Heads tree config generation progress)
    (haction : action config progress = .ask request next) :
    (now.serve request).1 = now ∧
      Bound tree now config generation (next (now.serve request).2) := by
  have hgoes := h.heads_next hheads haction
  have hanswer : ∀ answer, tree.serve request = (tree, answer) →
      now.serve request = (now, answer) → Onward tree config (next answer) →
      (now.serve request).1 = now ∧
        Bound tree now config generation (next (now.serve request).2) := by
    intro answer hfirst hnow honward
    rw [hfirst] at hgoes
    rw [hnow]
    exact ⟨rfl, bound_of_onward honward (hgoes rfl)⟩
  cases h with
  | opening =>
    obtain ⟨rfl, hnext⟩ := Action.ask.inj haction
    have hstart : Knows tree ({} : Loading).loaded := knows_nil tree
    refine ⟨rfl, bound_read hover _ next hstart ?_ (hgoes rfl)⟩
    rw [← eq_of_heq hnext]
    exact ⟨fun _ ↦ rfl, _, rfl⟩
  | @entering loading source targets hknows hfile =>
    obtain ⟨rfl, hnext⟩ := Action.ask.inj haction
    apply hanswer _ rfl (Prod.ext rfl (hover.canonical?_eq hfile))
    rw [← eq_of_heq hnext]
    exact onward_follow _ _ (hknows.cons hfile)
  | @looking loading frame target path others hknows =>
    obtain ⟨rfl, hnext⟩ := Action.ask.inj haction
    cases hfile : tree.file? path with
    | some found =>
      obtain ⟨content, hnow⟩ := hover.exists_file? hfile
      apply hanswer true (serve_isFile hfile) (serve_isFile hnow)
      rw [← eq_of_heq hnext]
      exact .inl (.identifying frame target hknows (by rw [hfile]; rfl))
    | none =>
      rcases hover.file?_eq_or path with hsame | ⟨location, content, hnow, hcontent⟩
      · rw [hfile] at hsame
        apply hanswer _ (serve_isFile hfile) (serve_isFile hsame)
        rw [← eq_of_heq hnext]
        exact onward_look frame target others hknows
      · rw [serve_isFile hnow, ← eq_of_heq hnext]
        -- No file was there when the loaded ones were read.
        obtain ⟨hfound, hspelled⟩ := notMem_of_new hover hknows hnow hfile
        exact ⟨rfl, .misled (.identifying frame target hnow hcontent hfound hspelled)⟩
  | @identifying loading path frame target hknows hfile =>
    obtain ⟨rfl, hnext⟩ := Action.ask.inj haction
    apply hanswer _ rfl (Prod.ext rfl (hover.canonical?_eq hfile))
    rw [← eq_of_heq hnext]
    exact onward_identify frame target path _ hknows
  | @including loading frame path hknows =>
    obtain ⟨rfl, hnext⟩ := Action.ask.inj haction
    have hstart : Knows tree
        ({ loading with frames := frame :: loading.frames } : Loading).loaded := hknows
    refine ⟨rfl, bound_read hover _ next hstart ?_ (hgoes rfl)⟩
    rw [← eq_of_heq hnext]
    exact ⟨fun _ ↦ rfl, _, rfl⟩

omit hover in
theorem Misled.bound_next (h : Misled now progress)
    (haction : action config progress = .ask request next) :
    (now.serve request).1 = now ∧
      Bound tree now config generation (next (now.serve request).2) := by
  cases h with
  | @identifying loading path location content frame target hfile hcontent hfound hspelled =>
    obtain ⟨rfl, hnext⟩ := Action.ask.inj haction
    have hnew : now.identity path ∉ loading.loaded := by
      rw [identity_of_file? hfile]
      split
      · exact hfound
      · exact hspelled
    rw [← eq_of_heq hnext]
    refine ⟨rfl, ?_⟩
    change Bound tree now config generation
      (identify config loading frame target path (now.identity path))
    by_cases hs : now.identity path ∈ (frame :: loading.frames).map Frame.identity
    · rw [identify_cycle hs]
      exact .finished _
    · rw [identify_new hs hnew]
      exact .misled (.including loading frame hfile hcontent)
  | @including path location content loading frame hfile hcontent =>
    obtain ⟨rfl, hnext⟩ := Action.ask.inj haction
    have hread : next (some content) =
        enter { loading with frames := frame :: loading.frames } path content := by
      rw [← eq_of_heq hnext]
    obtain ⟨e, henter⟩ :=
      enter_of_isGenerated hcontent { loading with frames := frame :: loading.frames } path
    rw [serve_read hfile]
    exact ⟨rfl, hread.trans henter ▸ .finished (.error e)⟩

end Loading

section Writing

variable {request : Request} {next : request.Answer → Progress}

def Fits (now : FileTree) (config : RunConfig) (generation : Generation) : Prop :=
  ∀ artifact ∈ generation.artifacts, IsGenerated artifact.content.toUTF8 ∧
    isName artifact.fileName = true ∧
    ∃ directory, IsSlot now (artifact.pathIn config.outputDir) directory artifact.fileName

theorem bound_of_writing {writing : Writing} (hover : Overlays IsGenerated now tree)
    (hfits : Fits now config generation) (hwriting : progress.writing? = some writing)
    (hall : ∀ artifact ∈ writing.artifact :: writing.others, artifact ∈ generation.artifacts)
    (haction : action config progress = .ask request next) :
    Overlays IsGenerated (now.serve request).1 tree ∧
      Keeps IsGenerated now (now.serve request).1 ∧
      ∀ answer, Bound tree (now.serve request).1 config generation (next answer) := by
  obtain ⟨hcontent, hname, directory, hslot⟩ := hfits _ (hall _ List.mem_cons_self)
  have hproceed : ∀ now result,
      Bound tree now config generation (proceed config writing result) :=
    fun now result ↦ bound_write _ fun artifact hmem ↦ hall artifact (List.mem_cons_of_mem _ hmem)
  have hfail : ∀ now, Bound tree now config generation (fail config writing) :=
    fun now ↦ .finished _
  cases progress with
  | comparing writing =>
    obtain rfl := Option.some.inj hwriting
    cases haction
    refine ⟨hover, .refl _ now, fun answer ↦ ?_⟩
    simp only
    split
    · exact hproceed _ _
    · exact .writing rfl hall
  | preparing writing =>
    obtain rfl := Option.some.inj hwriting
    cases haction
    have hmade : (now.serve (.makeDirectories (pathOf config writing))).1 = now := by
      have heq := hslot.makeDirectories_eq hname
      exact congrArg Prod.fst heq
    rw [hmade]
    refine ⟨hover, .refl _ now, fun answer ↦ ?_⟩
    cases answer with
    | true => exact .writing rfl hall
    | false => exact hfail _
  | placing writing =>
    obtain rfl := Option.some.inj hwriting
    cases haction
    obtain ⟨hover', hkeeps⟩ := hover.serve_place hslot hcontent
    refine ⟨hover', hkeeps, fun answer ↦ ?_⟩
    cases answer with
    | true => exact hproceed _ _
    | false => exact hfail _
  | _ => cases hwriting

/-- Whatever a run asks for, it stays bound to what was generated from the first files. -/
theorem Bound.next_of_ask (hover : Overlays IsGenerated now tree)
    (hfits : Fits now config generation) (h : Bound tree now config generation progress)
    (haction : action config progress = .ask request next) :
    Overlays IsGenerated (now.serve request).1 tree ∧
      Keeps IsGenerated now (now.serve request).1 ∧
      Bound tree (now.serve request).1 config generation (next (now.serve request).2) := by
  cases h with
  | loading hfaithful hheads =>
    obtain ⟨hserve, hbound⟩ := hfaithful.bound_next hover hheads haction
    rw [hserve]
    exact ⟨hover, .refl _ now, hbound⟩
  | misled hmisled =>
    obtain ⟨hserve, hbound⟩ := hmisled.bound_next haction
    rw [hserve]
    exact ⟨hover, .refl _ now, hbound⟩
  | writing hwriting hall =>
    obtain ⟨hover', hkeeps, hbound⟩ := bound_of_writing hover hfits hwriting hall haction
    exact ⟨hover', hkeeps, hbound _⟩
  | finished result => cases haction

end Writing

end PairedSource
