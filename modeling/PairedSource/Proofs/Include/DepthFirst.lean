import PairedSource.Proofs.Include.Chain
import PairedSource.Proofs.Lists

namespace PairedSource.Manifest

open Relation

variable {tree : FileTree} {searchPath : Option Path} {root : Path}

section Equations

variable {source : SourceText} {stack loaded : List Identity} {target : String}
  {targets : List String} {path : Path} {location : Location} {content : ByteArray}

theorem loadIncludes_missing (h : firstFile? tree (candidates searchPath source target) = none) :
    loadIncludes tree searchPath source stack loaded (target :: targets) =
      .error (source.errorAt (.missingInclude target searchPath) target) := by
  rw [loadIncludes]
  split <;> simp_all

variable (h : firstFile? tree (candidates searchPath source target) =
  some (path, location, content))

include h

theorem loadIncludes_cycle (hs : tree.identity path ∈ stack) :
    loadIncludes tree searchPath source stack loaded (target :: targets) =
      .error (source.errorAt (.includeCycle path) target) := by
  rw [loadIncludes]
  split <;> simp_all

theorem loadIncludes_again (hs : tree.identity path ∉ stack) (hl : tree.identity path ∈ loaded) :
    loadIncludes tree searchPath source stack loaded (target :: targets) =
      loadIncludes tree searchPath source stack loaded targets := by
  rw [loadIncludes]
  split <;> simp_all

theorem loadIncludes_new (hs : tree.identity path ∉ stack) (hl : tree.identity path ∉ loaded) :
    loadIncludes tree searchPath source stack loaded (target :: targets) = (do
      let (included, manifest, models) ← readFile path content
      let (nested, loaded) ← loadIncludes tree searchPath included (tree.identity path :: stack)
        (tree.identity path :: loaded) manifest.includes
      let (others, loaded) ← loadIncludes tree searchPath source stack loaded targets
      return (models ++ nested ++ others, loaded)) := by
  rw [loadIncludes]
  split
  · simp_all
  · rename_i heq
    rw [h, Option.some.injEq, Prod.mk.injEq, Prod.mk.injEq] at heq
    obtain ⟨rfl, rfl, rfl⟩ := heq
    simp [hs, hl, readFile]

end Equations

variable (tree searchPath) in
/-- Every file that is loaded to the end has a preorder, all of which is loaded to the end. -/
def Settled (stack loaded : List Location) : Prop :=
  ∀ a ∈ loaded, a ∉ stack →
    ∃ walk, Unfolds tree searchPath [a] walk ∧ ∀ b ∈ walk, b ∈ loaded ∧ b ∉ stack

variable (tree searchPath) in
/-- The includes of a file led to some files with the given preorder, of which those that are not
loaded yet give their models and become loaded. -/
structure Loads (file : Location) (stack loaded : List Location) (targets : List String)
    (models : List (UnitModel Entry)) (loaded' files walk : List Location) : Prop where
  resolved : targets.map (resolve tree searchPath file) = files.map some
  unfolds : Unfolds tree searchPath files walk
  settled : ∀ a ∈ walk, a ∈ loaded' ∧ a ∉ stack
  loaded_eq : loaded' = (loaded.newcomers walk).reverse ++ loaded
  models_eq : models = (loaded.newcomers walk).flatMap (modelsAt tree)

section Success

variable {file a : Location} {stack loaded loaded' files walk : List Location}
  {targets : List String} {models : List (UnitModel Entry)}

theorem Settled.push (h : Settled tree searchPath stack loaded) (ha : a ∉ loaded) :
    Settled tree searchPath (a :: stack) (a :: loaded) := by
  intro b hb hbs
  obtain ⟨hne, hbs⟩ := not_or.1 (fun h ↦ hbs (List.mem_cons.2 h))
  obtain ⟨walk, hwalk, hsub⟩ := h b ((List.mem_cons.1 hb).resolve_left hne) hbs
  refine ⟨walk, hwalk, fun c hc ↦ ⟨.tail _ (hsub c hc).1, ?_⟩⟩
  intro h
  rcases h with _ | ⟨_, hcs⟩
  · exact ha (hsub _ hc).1
  · exact (hsub c hc).2 hcs

theorem Loads.settled_loaded (h : Loads tree searchPath file stack loaded targets models loaded'
    files walk) (hset : Settled tree searchPath stack loaded) :
    Settled tree searchPath stack loaded' := by
  intro a ha has
  rw [h.loaded_eq, List.mem_append, List.mem_reverse, List.mem_newcomers] at ha
  rcases ha with ⟨ha, -⟩ | ha
  · obtain ⟨part, hpart, hsub, -⟩ := h.unfolds.exists_of_mem ha
    exact ⟨part, hpart, fun b hb ↦ h.settled b (hsub hb)⟩
  · obtain ⟨part, hpart, hsub⟩ := hset a ha has
    refine ⟨part, hpart, fun b hb ↦ ⟨?_, (hsub b hb).2⟩⟩
    rw [h.loaded_eq]
    exact List.mem_append_right _ (hsub b hb).1

theorem Loads.settled_pop {manifest : Manifest} {own : List (UnitModel Entry)}
    (hread : readAt tree a = some (manifest, own)) (hs : a ∉ stack)
    (h : Loads tree searchPath a (a :: stack) (a :: loaded) manifest.includes models loaded'
      files walk) (hset : Settled tree searchPath (a :: stack) loaded') :
    Settled tree searchPath stack loaded' := by
  intro b hb hbs
  by_cases hba : b = a
  · subst hba
    refine ⟨_, .cons hread h.resolved h.unfolds .nil, fun c hc ↦ ?_⟩
    rw [List.append_nil, List.mem_cons] at hc
    rcases hc with rfl | hc
    · exact ⟨hb, hs⟩
    · exact ⟨(h.settled c hc).1, fun hcs ↦ (h.settled c hc).2 (.tail _ hcs)⟩
  · obtain ⟨part, hpart, hsub⟩ := hset b hb (by simp [hba, hbs])
    exact ⟨part, hpart, fun c hc ↦ ⟨(hsub c hc).1, fun hcs ↦ (hsub c hc).2 (.tail _ hcs)⟩⟩

theorem Loads.nil : Loads tree searchPath file stack loaded [] [] loaded [] [] where
  resolved := rfl
  unfolds := .nil
  settled := by simp
  loaded_eq := by simp [List.newcomers]
  models_eq := by simp [List.newcomers]

theorem Loads.again {target : String} (h : Loads tree searchPath file stack loaded targets models
    loaded' files walk) (hset : Settled tree searchPath stack loaded)
    (htarget : resolve tree searchPath file target = some a) (hs : a ∉ stack) (hl : a ∈ loaded) :
    ∃ walk', Loads tree searchPath file stack loaded (target :: targets) models loaded'
      (a :: files) walk' := by
  obtain ⟨part, hpart, hsub⟩ := hset a hl hs
  have hnew : loaded.newcomers (part ++ walk) = loaded.newcomers walk := by
    rw [List.newcomers_append, List.newcomers_of_subset fun b hb ↦ (hsub b hb).1]
    rfl
  refine ⟨part ++ walk, ?_, hpart.append h.unfolds, fun b hb ↦ ?_, ?_, ?_⟩
  · rw [List.map_cons, List.map_cons, htarget, h.resolved]
  · rcases List.mem_append.1 hb with hb | hb
    · rw [h.loaded_eq]
      exact ⟨List.mem_append_right _ (hsub b hb).1, (hsub b hb).2⟩
    · exact h.settled b hb
  · rw [hnew, h.loaded_eq]
  · rw [hnew, h.models_eq]

theorem Loads.new {target : String} {manifest : Manifest}
    {own nested : List (UnitModel Entry)} {between files' walk' : List Location}
    (hread : readAt tree a = some (manifest, own))
    (htarget : resolve tree searchPath file target = some a) (hs : a ∉ stack) (hl : a ∉ loaded)
    (hin : Loads tree searchPath a (a :: stack) (a :: loaded) manifest.includes nested between
      files' walk')
    (hout : Loads tree searchPath file stack between targets models loaded' files walk) :
    Loads tree searchPath file stack loaded (target :: targets) (own ++ nested ++ models) loaded'
      (a :: files) (a :: walk' ++ walk) := by
  have hnew : loaded.newcomers (a :: walk' ++ walk) =
      a :: (a :: loaded).newcomers walk' ++ between.newcomers walk := by
    rw [List.newcomers_append, List.newcomers_cons hl, hin.loaded_eq]
    simp
  have hmono : between ⊆ loaded' := by
    rw [hout.loaded_eq]
    exact List.subset_append_right _ _
  refine ⟨?_, .cons hread hin.resolved hin.unfolds hout.unfolds, fun b hb ↦ ?_, ?_, ?_⟩
  · rw [List.map_cons, List.map_cons, htarget, hout.resolved]
  · rw [List.cons_append, List.mem_cons, List.mem_append] at hb
    rcases hb with rfl | hb | hb
    · refine ⟨hmono ?_, hs⟩
      rw [hin.loaded_eq]
      simp
    · obtain ⟨hb, hbs⟩ := hin.settled b hb
      exact ⟨hmono hb, fun h ↦ hbs (.tail _ h)⟩
    · exact hout.settled b hb
  · rw [hnew, hout.loaded_eq, hin.loaded_eq]
    simp
  · rw [hnew, hout.models_eq, hin.models_eq]
    simp [modelsAt, hread]

/-- The invariant of the loader: what is on the stack is the chain of includes that leads to the
file, and what left the stack is settled. -/
theorem exists_loads (hlimit : SpelledWithinLimit tree searchPath root)
    (hnamed : NamedWithinLimit tree searchPath root) (source : SourceText)
    (ids known : List Identity) (targets : List String) :
    ∀ stop above loaded models known',
      Following tree searchPath root stop above source ids targets → known = loaded.map .found →
      Settled tree searchPath ((stop :: above).map Stop.location) loaded →
      loadIncludes tree searchPath source ids known targets = .ok (models, known') →
      ∃ loaded' files walk, known' = loaded'.map .found ∧
        Loads tree searchPath stop.location ((stop :: above).map Stop.location) loaded targets
          models loaded' files walk := by
  induction source, ids, known, targets using loadIncludes.induct tree searchPath with
  | case1 source ids known =>
    intro stop above loaded models known' _ hknown _ h
    rw [loadIncludes] at h
    obtain ⟨rfl, rfl⟩ := Prod.mk.inj (Except.ok.inj h)
    exact ⟨loaded, [], [], hknown, .nil⟩
  | case2 source ids known target targets hfirst =>
    intro stop above loaded models known' _ _ _ h
    rw [loadIncludes_missing hfirst] at h
    cases h
  | case3 source ids known target targets path location content hfirst hs =>
    intro stop above loaded models known' _ _ _ h
    rw [loadIncludes_cycle hfirst hs] at h
    cases h
  | case4 source ids known target targets path location content hfirst hs hl ih =>
    intro stop above loaded models known' hfollow hknown hset h
    rw [loadIncludes_again hfirst hs hl] at h
    have hfound : location ∈ loaded := by
      rw [hfollow.identity_eq hfirst hs hnamed, hknown] at hl
      simpa using hl
    obtain ⟨loaded', files, walk, hknown', hloads⟩ :=
      ih stop above loaded models known' hfollow.tail hknown hset h
    obtain ⟨walk', hloads'⟩ := hloads.again hset (hfollow.resolve_eq_some hfirst hlimit)
      (hfollow.location_notMem hfirst hs hnamed) hfound
    exact ⟨loaded', _, walk', hknown', hloads'⟩
  | case5 source ids known target targets path location content hfirst hs hl ihin ihout =>
    intro stop above loaded models known' hfollow hknown hset h
    simp only [loadIncludes_new hfirst hs hl, Except.bind_eq_ok_iff] at h
    obtain ⟨⟨included, manifest, own⟩, hfile, ⟨nested, between⟩, hnested,
      ⟨others, last⟩, hothers, hpair⟩ := h
    obtain ⟨rfl, rfl⟩ := Prod.mk.inj (Except.ok.inj hpair)
    have hstack := hfollow.location_notMem hfirst hs hnamed
    have hidentity := hfollow.identity_eq hfirst hs hnamed
    have hnew : location ∉ loaded := by
      rw [hidentity, hknown] at hl
      simpa using hl
    obtain ⟨hfollow', hread⟩ := hfollow.enter hfirst hs hfile
    have hknown' : tree.identity path :: known = (location :: loaded).map .found := by
      rw [hidentity, hknown]
      rfl
    obtain ⟨loaded', files', walk', hbetween, hin⟩ := ihin included manifest ⟨path, location⟩
      (stop :: above) (location :: loaded) nested between hfollow' hknown' (hset.push hnew) hnested
    have hset' := hin.settled_pop hread hstack (hin.settled_loaded (hset.push hnew))
    obtain ⟨loaded'', files, walk, hlast, hout⟩ := ihout between stop above loaded' others last
      hfollow.tail hbetween hset' hothers
    exact ⟨loaded'', _, _, hlast,
      hin.new hread (hfollow.resolve_eq_some hfirst hlimit) hstack hnew hout⟩

end Success

end PairedSource.Manifest
