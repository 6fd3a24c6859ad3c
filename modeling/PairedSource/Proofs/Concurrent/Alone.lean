import PairedSource.Proofs.Concurrent.Progress
import PairedSource.Proofs.Include.DepthFirst

namespace PairedSource

open Manifest Progress

/-- Some steps of a run that is alone with its files, all with requests that are allowed. -/
inductive Alone (config : RunConfig) (allowed : Request → Prop) :
    FileTree → Progress → Nat → FileTree → Progress → Prop
  | nil (tree : FileTree) (progress : Progress) : Alone config allowed tree progress 0 tree progress
  | cons {tree tree' : FileTree} {progress progress' : Progress} {request : Request}
      {next : request.Answer → Progress} {n : Nat} :
      action config progress = .ask request next → allowed request →
      Alone config allowed (tree.serve request).1 (next (tree.serve request).2) n tree' progress' →
      Alone config allowed tree progress (n + 1) tree' progress'

def Reaches (config : RunConfig) (allowed : Request → Prop) (tree : FileTree)
    (progress : Progress) (tree' : FileTree) (progress' : Progress) : Prop :=
  ∃ n, Alone config allowed tree progress n tree' progress'

variable {config : RunConfig} {allowed : Request → Prop} {tree tree' tree'' : FileTree}
  {progress progress' progress'' : Progress}

theorem Alone.trans {n m : Nat} (h : Alone config allowed tree progress n tree' progress')
    (h' : Alone config allowed tree' progress' m tree'' progress'') :
    Alone config allowed tree progress (n + m) tree'' progress'' := by
  induction h with
  | nil => simpa only [Nat.zero_add] using h'
  | cons haction hallowed _ ih =>
    simpa only [Nat.add_right_comm] using Alone.cons haction hallowed (ih h')

namespace Reaches

theorem refl : Reaches config allowed tree progress tree progress :=
  ⟨0, .nil tree progress⟩

theorem trans (h : Reaches config allowed tree progress tree' progress')
    (h' : Reaches config allowed tree' progress' tree'' progress'') :
    Reaches config allowed tree progress tree'' progress'' := by
  obtain ⟨n, h⟩ := h
  obtain ⟨m, h'⟩ := h'
  exact ⟨n + m, h.trans h'⟩

theorem ask {request : Request} {next : request.Answer → Progress} {answer : request.Answer}
    (haction : action config progress = .ask request next) (hallowed : allowed request)
    (hserve : tree.serve request = (tree', answer))
    (h : Reaches config allowed tree' (next answer) tree'' progress'') :
    Reaches config allowed tree progress tree'' progress'' := by
  obtain ⟨n, h⟩ := h
  refine ⟨n + 1, .cons haction hallowed ?_⟩
  rwa [hserve]

end Reaches

def AllowsReading (allowed : Request → Prop) (path : Path) : Prop :=
  allowed (.isFile path) ∧ allowed (.canonical path) ∧ allowed (.read path)

def AllowsWriting (allowed : Request → Prop) (path : Path) : Prop :=
  allowed (.read path) ∧ allowed (.makeDirectories path) ∧
    ∀ content, allowed (.place path content)

/-- Everything that a run looks at is allowed. -/
structure AllowsLoading (tree : FileTree) (config : RunConfig) (allowed : Request → Prop) :
    Prop where
  input : AllowsReading allowed config.input
  includes : ∀ stop above, Chain tree config.searchPath config.input (stop :: above) →
    ∀ manifest models, readAt tree stop.location = some (manifest, models) →
      ∀ target ∈ manifest.includes, ∀ source : SourceText, source.path = stop.path →
        ∀ path ∈ candidates config.searchPath source target, AllowsReading allowed path

section Looking

variable {loading : Loading} {frame : Frame} {target : String} {paths : List Path} {path : Path}
  {location : Location} {content : ByteArray}

theorem reaches_look_none (hallowed : ∀ path ∈ paths, AllowsReading allowed path)
    (h : firstFile? tree paths = none) :
    Reaches config allowed tree (look config loading frame target paths) tree
      (look config loading frame target []) := by
  induction paths with
  | nil => exact .refl
  | cons path paths ih =>
    rw [firstFile?, List.findSome?_cons] at h
    cases hfile : tree.file? path with
    | some found => simp [hfile] at h
    | none =>
      rw [hfile] at h
      have hserve : tree.serve (.isFile path) = (tree, false) :=
        FileTree.serve_isFile hfile
      exact .ask rfl (hallowed path (by simp)).1 hserve
        (ih (fun p hp ↦ hallowed p (by simp [hp])) h)

theorem reaches_look_some (hallowed : ∀ path ∈ paths, AllowsReading allowed path)
    (h : firstFile? tree paths = some (path, location, content)) :
    Reaches config allowed tree (look config loading frame target paths) tree
      (identify config loading frame target path (tree.identity path)) := by
  induction paths with
  | nil => cases h
  | cons first paths ih =>
    rw [firstFile?, List.findSome?_cons] at h
    have hfirst := hallowed first (by simp)
    cases hfile : tree.file? first with
    | some found =>
      simp only [hfile, Option.map_some, Option.some.injEq, Prod.mk.injEq] at h
      obtain ⟨rfl, rfl⟩ := h
      have hserve : tree.serve (.isFile first) = (tree, true) :=
        FileTree.serve_isFile hfile
      exact .ask rfl hfirst.1 hserve (.ask rfl hfirst.2.1 rfl .refl)
    | none =>
      rw [hfile] at h
      have hserve : tree.serve (.isFile first) = (tree, false) :=
        FileTree.serve_isFile hfile
      exact .ask rfl hfirst.1 hserve (ih (fun p hp ↦ hallowed p (by simp [hp])) h)

theorem reaches_enter (hallowed : AllowsReading allowed path)
    (hfile : tree.file? path = some (location, content)) {source : SourceText}
    {manifest : Manifest} {models : List (UnitModel Entry)}
    (hread : readFile path content = .ok (source, manifest, models)) :
    Reaches config allowed tree (enter loading path content) tree
      (follow config (loading.models ++ models) (tree.identity path :: loading.loaded)
        (⟨source, tree.identity path, manifest.includes⟩ :: loading.frames)) := by
  have hpath := (readAt_of_readFile (FileTree.file?_eq_some_iff.1 hfile).2.2 hread).1
  rw [enter, hread, ← hpath]
  exact .ask rfl (hpath ▸ hallowed.2.1) rfl .refl

end Looking

section Following

variable (config) in
def after (models : List (UnitModel Entry)) (frames : List Frame) :
    Except Error (List (UnitModel Entry) × List Identity) → Progress
  | .ok (more, loaded) => follow config (models ++ more) loaded frames
  | .error e => finished (.error e)

section Identifying

variable {loading : Loading} {frame : Frame} {target : String} {path : Path}
  {identity : Identity}

theorem identify_cycle (h : identity ∈ (frame :: loading.frames).map Frame.identity) :
    identify config loading frame target path identity =
      finished (.error (frame.source.errorAt (.includeCycle path) target)) := by
  rw [identify, if_pos h]

variable (h : identity ∉ (frame :: loading.frames).map Frame.identity)

include h

theorem identify_again (hl : identity ∈ loading.loaded) :
    identify config loading frame target path identity =
      follow config loading.models loading.loaded (frame :: loading.frames) := by
  rw [identify, if_neg h, if_pos hl]

theorem identify_new (hl : identity ∉ loading.loaded) :
    identify config loading frame target path identity = including loading frame path := by
  rw [identify, if_neg h, if_neg hl]

end Identifying

theorem reaches_including {loading : Loading} {frame : Frame} {target : String} {path : Path}
    {location : Location} {content : ByteArray} {paths : List Path}
    (hs : tree.identity path ∉ (frame :: loading.frames).map Frame.identity)
    (hl : tree.identity path ∉ loading.loaded)
    (hallowed : ∀ path ∈ paths, AllowsReading allowed path)
    (hfirst : firstFile? tree paths = some (path, location, content)) :
    Reaches config allowed tree (look config loading frame target paths) tree
      (enter { loading with frames := frame :: loading.frames } path content) := by
  obtain ⟨hpath, hfile⟩ := file?_of_firstFile? hfirst
  have hserve : tree.serve (.read path) = (tree, some content) := FileTree.serve_read hfile
  refine (reaches_look_some hallowed hfirst).trans ?_
  rw [identify_new hs hl]
  exact .ask rfl (hallowed path hpath).2.2 hserve .refl

theorem AllowsLoading.candidates (hallowed : AllowsLoading tree config allowed) {stop : Stop}
    {above : List Stop} {source : SourceText} {stack : List Identity} {target : String}
    {targets : List String}
    (h : Following tree config.searchPath config.input stop above source stack
      (target :: targets)) :
    ∀ path ∈ candidates config.searchPath source target, AllowsReading allowed path := by
  obtain ⟨hchain, hsource, -, manifest, models, hread, hsub⟩ := h
  exact hallowed.includes stop above hchain manifest models hread target
    (List.cons_subset.1 hsub).1 source hsource

/-- Step by step a run follows the includes of a manifest as the loader does, whatever it still has
to do afterwards. -/
theorem reaches_follow (hallowed : AllowsLoading tree config allowed) (source : SourceText)
    (stack loaded : List Identity) (targets : List String) :
    ∀ stop above models frames,
      Following tree config.searchPath config.input stop above source stack targets →
      stack = tree.identity stop.path :: frames.map Frame.identity →
      Reaches config allowed tree
        (follow config models loaded (⟨source, tree.identity stop.path, targets⟩ :: frames)) tree
        (after config models frames
          (loadIncludes tree config.searchPath source stack loaded targets)) := by
  induction source, stack, loaded, targets using loadIncludes.induct tree config.searchPath with
  | case1 source stack loaded =>
    intro stop above models frames _ _
    rw [loadIncludes, after, List.append_nil]
    exact .refl
  | case2 source stack loaded target targets hfirst =>
    intro stop above models frames hfollow _
    rw [loadIncludes_missing hfirst]
    exact reaches_look_none (hallowed.candidates hfollow) hfirst
  | case3 source stack loaded target targets path location content hfirst hs =>
    intro stop above models frames hfollow hframes
    rw [loadIncludes_cycle hfirst hs]
    refine (reaches_look_some (hallowed.candidates hfollow) hfirst).trans ?_
    rw [hframes] at hs
    rw [identify_cycle hs]
    exact .refl
  | case4 source stack loaded target targets path location content hfirst hs hl ih =>
    intro stop above models frames hfollow hframes
    rw [loadIncludes_again hfirst hs hl]
    refine (reaches_look_some (hallowed.candidates hfollow) hfirst).trans ?_
    rw [hframes] at hs
    rw [identify_again hs hl]
    exact ih stop above models frames hfollow.tail hframes
  | case5 source stack loaded target targets path location content hfirst hs hl ihin ihout =>
    intro stop above models frames hfollow hframes
    have hlook := hallowed.candidates hfollow
    obtain ⟨hpath, hfile⟩ := file?_of_firstFile? hfirst
    have hnew := hs
    rw [hframes] at hnew
    refine (reaches_including hnew hl hlook hfirst).trans ?_
    rw [loadIncludes_new hfirst hs hl]
    cases hown : readFile path content with
    | error e =>
      simp only [enter, hown]
      exact .refl
    | ok result =>
      obtain ⟨included, manifest, own⟩ := result
      have hin := ihin included manifest ⟨path, location⟩ (stop :: above) (models ++ own)
        (⟨source, tree.identity stop.path, targets⟩ :: frames) (hfollow.enter hfirst hs hown).1
        (by rw [hframes]; rfl)
      refine (reaches_enter (hlook path hpath) hfile hown).trans (hin.trans ?_)
      cases hnested : loadIncludes tree config.searchPath included (tree.identity path :: stack)
          (tree.identity path :: loaded) manifest.includes with
      | error e =>
        simp only [Except.ok_bind, Except.error_bind, hnested]
        exact .refl
      | ok result =>
        obtain ⟨nested, between⟩ := result
        have hout := ihout between stop above (models ++ own ++ nested) frames hfollow.tail hframes
        refine hout.trans ?_
        simp only [Except.ok_bind, hnested]
        cases loadIncludes tree config.searchPath source stack between targets with
        | error e => exact .refl
        | ok result =>
          simp only [after, Except.ok_bind, pure, Except.pure, List.append_assoc]
          exact .refl

end Following

end PairedSource
