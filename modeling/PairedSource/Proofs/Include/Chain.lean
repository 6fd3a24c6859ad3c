import PairedSource.Proofs.FileTree.Identity
import PairedSource.Proofs.Include.Graph

namespace PairedSource.Manifest

open Relation

structure Stop where
  path : Path
  location : Location
  deriving DecidableEq

variable (tree : FileTree) (searchPath : Option Path) (root : Path)

/-- The files that may be in the middle of being loaded together, the innermost first. Each is
spelled by the include that led to it. -/
inductive Chain : List Stop → Prop
  | start {location : Location} {content : ByteArray} :
      tree.file? root = some (location, content) → Chain [⟨root, location⟩]
  | follow {stop : Stop} {above : List Stop} {source : SourceText} {manifest : Manifest}
      {models : List (UnitModel Entry)} {target : String} {path : Path} {location : Location}
      {content : ByteArray} :
      Chain (stop :: above) → readAt tree stop.location = some (manifest, models) →
      target ∈ manifest.includes → source.path = stop.path →
      firstFile? tree (candidates searchPath source target) = some (path, location, content) →
      tree.identity path ∉ (stop :: above).map (tree.identity ·.path) →
      Chain (⟨path, location⟩ :: stop :: above)

/-- No chain of includes spells a path that is longer than a path may be. -/
def SpelledWithinLimit : Prop :=
  ∀ stop above, Chain tree searchPath root (stop :: above) →
    ∀ manifest models, readAt tree stop.location = some (manifest, models) →
      ∀ target ∈ manifest.includes, ∀ source : SourceText, source.path = stop.path →
        (source.relative target).text.utf8ByteSize ≤ FileTree.maxPathLength

/-- All that is passed on the way to the files of a chain has an absolute path that is not longer
than a path may be. -/
def NamedWithinLimit : Prop :=
  ∀ stop above, Chain tree searchPath root (stop :: above) →
    FileTree.isNameable (tree.start stop.path) stop.path.segments = true

variable {tree searchPath root} {source : SourceText} {stop : Stop} {above : List Stop}
  {manifest : Manifest} {models : List (UnitModel Entry)} {path : Path} {location : Location}
  {content : ByteArray} {target : String}

theorem file?_of_firstFile? {paths : List Path}
    (h : firstFile? tree paths = some (path, location, content)) :
    path ∈ paths ∧ tree.file? path = some (location, content) := by
  obtain ⟨p, hp, h⟩ := List.exists_of_findSome?_eq_some h
  obtain ⟨found, hf, hpair⟩ := Option.map_eq_some_iff.1 h
  obtain ⟨rfl, rfl⟩ := Prod.mk.inj hpair
  exact ⟨hp, hf⟩

theorem Chain.exists_file? {stops : List Stop} (h : Chain tree searchPath root stops) :
    ∀ stop ∈ stops, ∃ content, tree.file? stop.path = some (stop.location, content) := by
  induction h with
  | start hfile =>
    intro stop hstop
    obtain rfl := List.mem_singleton.1 hstop
    exact ⟨_, hfile⟩
  | follow _ _ _ _ hfirst _ ih =>
    intro stop hstop
    rcases List.mem_cons.1 hstop with rfl | hstop
    · exact ⟨_, (file?_of_firstFile? hfirst).2⟩
    · exact ih stop hstop

theorem Chain.mem_of_identity_mem {stops : List Stop} (h : Chain tree searchPath root stops)
    (hfile : tree.file? path = some (location, content))
    (hs : tree.identity path ∈ stops.map (tree.identity ·.path)) :
    ∃ stop ∈ stops, stop.location = location := by
  obtain ⟨stop, hstop, heq⟩ := List.mem_map.1 hs
  obtain ⟨content', hfile'⟩ := h.exists_file? stop hstop
  exact ⟨stop, hstop, FileTree.location_eq_of_identity_eq heq hfile' hfile⟩

section Named

variable (hnamed : NamedWithinLimit tree searchPath root)

include hnamed

theorem Chain.identity_eq (h : Chain tree searchPath root (stop :: above)) :
    tree.identity stop.path = .found stop.location := by
  obtain ⟨content, hfile⟩ := h.exists_file? stop List.mem_cons_self
  rw [FileTree.identity_of_file? hfile, if_pos (hnamed stop above h)]

theorem Chain.map_identity {stops : List Stop} (h : Chain tree searchPath root stops) :
    stops.map (tree.identity ·.path) = (stops.map Stop.location).map .found := by
  induction h with
  | start hfile => simp [(Chain.start hfile).identity_eq hnamed]
  | follow h hread htarget hsource hfirst hs ih =>
    rw [List.map_cons, ih, (Chain.follow h hread htarget hsource hfirst hs).identity_eq hnamed]
    rfl

end Named

/-- Within the limit, what an include means does not depend on how its file was reached. -/
theorem firstFile?_candidates (hlimit : SpelledWithinLimit tree searchPath root)
    (h : Chain tree searchPath root (stop :: above))
    (hread : readAt tree stop.location = some (manifest, models))
    (htarget : target ∈ manifest.includes) (hsource : source.path = stop.path) :
    (firstFile? tree (candidates searchPath source target)).map (·.2.1) =
      resolve tree searchPath stop.location target := by
  obtain ⟨content, hfile⟩ := h.exists_file? stop List.mem_cons_self
  have hlocal := FileTree.file?_relative (hsource ▸ hfile)
    (hlimit stop above h manifest models hread target htarget source hsource)
  rw [resolve, ← hlocal, firstFile?, candidates, List.findSome?_cons]
  cases tree.file? (source.relative target) with
  | some found => simp
  | none =>
    cases searchPath with
    | none => rfl
    | some directory => cases hd : tree.file? (directory.join ⟨target⟩) <;> simp [hd]

theorem firstFile?_of_file? {found : Location × ByteArray}
    (h : tree.file? (source.relative target) = some found) :
    firstFile? tree (candidates searchPath source target) =
      some (source.relative target, found) := by
  rw [firstFile?, candidates, List.findSome?_cons, h]
  rfl

theorem resolve_of_file? {content' : ByteArray} {next : Location}
    (h : tree.file? source.path = some (location, content))
    (hnext : tree.file? (source.relative target) = some (next, content')) :
    resolve tree searchPath location target = some next := by
  have hlength := (FileTree.isAdmissible_iff.1 (FileTree.file?_eq_some_iff.1 hnext).1).1
  rw [resolve, ← FileTree.file?_relative h hlength, hnext]
  rfl

theorem includes_of_firstFile? (hlimit : SpelledWithinLimit tree searchPath root)
    (h : Chain tree searchPath root (stop :: above))
    (hread : readAt tree stop.location = some (manifest, models))
    (htarget : target ∈ manifest.includes) (hsource : source.path = stop.path)
    (hfirst : firstFile? tree (candidates searchPath source target) =
      some (path, location, content)) :
    resolve tree searchPath stop.location target = some location ∧
      Includes tree searchPath stop.location location := by
  have hresolve := firstFile?_candidates hlimit h hread htarget hsource
  rw [hfirst] at hresolve
  exact ⟨hresolve.symm, manifest, models, hread, target, htarget, hresolve.symm⟩

theorem Chain.reachable (hlimit : SpelledWithinLimit tree searchPath root) {stops : List Stop}
    (h : Chain tree searchPath root stops) :
    ∀ inner above, stops = inner :: above → ∀ outer ∈ stops,
      ReflTransGen (Includes tree searchPath) outer.location inner.location := by
  induction h with
  | start hfile =>
    intro inner above heq outer houter
    obtain ⟨rfl, -⟩ := List.cons.inj heq
    rw [List.mem_singleton.1 houter]
  | follow h hread htarget hsource hfirst _ ih =>
    intro inner above heq outer houter
    obtain ⟨rfl, -⟩ := List.cons.inj heq
    rcases List.mem_cons.1 houter with rfl | houter
    · exact .refl
    · have hstep := (includes_of_firstFile? hlimit h hread htarget hsource hfirst).2
      exact (ih _ _ rfl outer houter).tail hstep

theorem candidates_congr {source source' : SourceText} (h : source.path = source'.path)
    (target : String) :
    candidates searchPath source target = candidates searchPath source' target := by
  rw [candidates, candidates, SourceText.relative, SourceText.relative, h]

section Following

variable (tree searchPath root) in
/-- The loader has some includes of the innermost file of a chain still ahead. -/
structure Following (stop : Stop) (above : List Stop) (source : SourceText) (stack : List Identity)
    (targets : List String) : Prop where
  chain : Chain tree searchPath root (stop :: above)
  path_eq : source.path = stop.path
  stack_eq : stack = (stop :: above).map (tree.identity ·.path)
  ahead : ∃ manifest models, readAt tree stop.location = some (manifest, models) ∧
    targets ⊆ manifest.includes

namespace Following

variable {included : SourceText} {stack : List Identity} {targets : List String}

theorem start (hroot : tree.file? root = some (location, content))
    (hread : readFile root content = .ok (source, manifest, models)) :
    Following tree searchPath root ⟨root, location⟩ [] source [tree.identity root]
        manifest.includes ∧ readAt tree location = some (manifest, models) := by
  obtain ⟨hsource, hread⟩ := readAt_of_readFile (FileTree.file?_eq_some_iff.1 hroot).2.2 hread
  exact ⟨⟨.start hroot, hsource, rfl, manifest, models, hread, List.Subset.refl _⟩, hread⟩

variable (h : Following tree searchPath root stop above source stack (target :: targets))

include h

theorem tail : Following tree searchPath root stop above source stack targets := by
  obtain ⟨hchain, hsource, hstack, manifest, models, hread, hsub⟩ := h
  exact ⟨hchain, hsource, hstack, manifest, models, hread, (List.cons_subset.1 hsub).2⟩

theorem resolve_eq (hlimit : SpelledWithinLimit tree searchPath root) :
    resolve tree searchPath stop.location target =
      (firstFile? tree (candidates searchPath source target)).map (·.2.1) := by
  obtain ⟨hchain, hsource, -, manifest, models, hread, hsub⟩ := h
  exact (firstFile?_candidates hlimit hchain hread (List.cons_subset.1 hsub).1 hsource).symm

variable (hfirst : firstFile? tree (candidates searchPath source target) =
  some (path, location, content))

include hfirst

theorem resolve_eq_some (hlimit : SpelledWithinLimit tree searchPath root) :
    resolve tree searchPath stop.location target = some location := by
  rw [h.resolve_eq hlimit, hfirst]
  rfl

theorem includes (hlimit : SpelledWithinLimit tree searchPath root) :
    Includes tree searchPath stop.location location := by
  have hresolve := h.resolve_eq_some hfirst hlimit
  obtain ⟨-, -, -, manifest, models, hread, hsub⟩ := h
  exact ⟨manifest, models, hread, target, (List.cons_subset.1 hsub).1, hresolve⟩

theorem reachable (hlimit : SpelledWithinLimit tree searchPath root)
    (hs : tree.identity path ∈ stack) :
    ReflTransGen (Includes tree searchPath) location stop.location := by
  rw [h.stack_eq] at hs
  obtain ⟨outer, houter, rfl⟩ := h.chain.mem_of_identity_mem (file?_of_firstFile? hfirst).2 hs
  exact h.chain.reachable hlimit stop above rfl outer houter

variable (hs : tree.identity path ∉ stack)

include hs

theorem chain_cons : Chain tree searchPath root (⟨path, location⟩ :: stop :: above) := by
  obtain ⟨hchain, hsource, rfl, manifest, models, hread, hsub⟩ := h
  exact hchain.follow hread (List.cons_subset.1 hsub).1 hsource hfirst hs

theorem enter (hread : readFile path content = .ok (included, manifest, models)) :
    Following tree searchPath root ⟨path, location⟩ (stop :: above) included
        (tree.identity path :: stack) manifest.includes ∧
      readAt tree location = some (manifest, models) := by
  have hcontent := (FileTree.file?_eq_some_iff.1 (file?_of_firstFile? hfirst).2).2.2
  obtain ⟨hsource, hread⟩ := readAt_of_readFile hcontent hread
  exact ⟨⟨h.chain_cons hfirst hs, hsource, by rw [h.stack_eq]; rfl, manifest, models, hread,
    List.Subset.refl _⟩, hread⟩

section Named

variable (hnamed : NamedWithinLimit tree searchPath root)

include hnamed

theorem identity_eq : tree.identity path = .found location :=
  (h.chain_cons hfirst hs).identity_eq hnamed

theorem location_notMem : location ∉ (stop :: above).map Stop.location := by
  intro hmem
  apply hs
  rw [h.identity_eq hfirst hs hnamed, h.stack_eq, h.chain.map_identity hnamed]
  exact List.mem_map_of_mem hmem

end Named

end Following

end Following

section Closed

variable (tree) in
def everyInclude (stops : List Stop) (property : Stop → String → Bool) : Bool :=
  stops.all fun stop ↦
    (readAt tree stop.location).all fun found ↦ found.1.includes.all (property stop)

variable (tree searchPath) in
def leadsInto (stops : List Stop) (stop : Stop) (target : String) : Bool :=
  (firstFile? tree (candidates searchPath ⟨stop.path, ""⟩ target)).all fun found ↦
    ⟨found.1, found.2.1⟩ ∈ stops

variable {stops : List Stop} {property : Stop → String → Bool}

theorem property_of_everyInclude (h : everyInclude tree stops property = true)
    (hstop : stop ∈ stops) (hread : readAt tree stop.location = some (manifest, models))
    (htarget : target ∈ manifest.includes) : property stop target = true := by
  have hfound := List.all_eq_true.1 h stop hstop
  rw [hread] at hfound
  exact List.all_eq_true.1 hfound target htarget

variable (hroot : (tree.file? root).all fun found ↦ ⟨root, found.1⟩ ∈ stops)
  (hclosed : everyInclude tree stops (leadsInto tree searchPath stops) = true)

include hroot hclosed

theorem Chain.mem_of_leadsInto {chain : List Stop} (h : Chain tree searchPath root chain) :
    ∀ stop ∈ chain, stop ∈ stops := by
  induction h with
  | start hfile =>
    intro stop hstop
    rw [List.mem_singleton.1 hstop]
    simpa [hfile] using hroot
  | @follow previous _ source _ _ target _ _ _ _ hread htarget hsource hfirst _ ih =>
    intro stop hstop
    rcases List.mem_cons.1 hstop with rfl | hstop
    · have hinto := property_of_everyInclude hclosed (ih previous (by simp)) hread htarget
      have hsame : source.path = (SourceText.mk previous.path "").path := hsource
      rw [leadsInto, ← candidates_congr hsame, hfirst] at hinto
      simpa using hinto
    · exact ih stop hstop

theorem Chain.property_of_everyInclude (h : Chain tree searchPath root (stop :: above))
    (hall : everyInclude tree stops property = true)
    (hread : readAt tree stop.location = some (manifest, models))
    (htarget : target ∈ manifest.includes) : property stop target = true :=
  Manifest.property_of_everyInclude hall (h.mem_of_leadsInto hroot hclosed stop (by simp)) hread
    htarget

variable (stops) in
theorem namedWithinLimit_of_all
    (hall : stops.all fun stop ↦
      FileTree.isNameable (tree.start stop.path) stop.path.segments) :
    NamedWithinLimit tree searchPath root :=
  fun stop _ h ↦ List.all_eq_true.1 hall stop (h.mem_of_leadsInto hroot hclosed stop (by simp))

variable (stops) in
theorem spelledWithinLimit_of_everyInclude
    (hall : everyInclude tree stops (fun stop target ↦
      (SourceText.relative ⟨stop.path, ""⟩ target).text.utf8ByteSize ≤
        FileTree.maxPathLength) = true) :
    SpelledWithinLimit tree searchPath root := by
  intro stop above hchain manifest models hread target htarget source hsource
  have h := hchain.property_of_everyInclude hroot hclosed hall hread htarget
  rw [decide_eq_true_eq, SourceText.relative] at h
  rwa [SourceText.relative, hsource]

end Closed

end PairedSource.Manifest
