import PairedSource.Proofs.Include.DepthFirst

namespace PairedSource.Manifest

open Relation

variable {tree : FileTree} {searchPath : Option Path} {root : Path}

variable (tree searchPath) in
/-- Why some includes cannot be loaded from a file that is reached from the root: a file that is
not in order, or a cycle. A fault that is called a cycle is one. -/
structure Fails (file : Location) (e : Error) : Prop where
  exists_fault : ∃ a, ReflTransGen (Includes tree searchPath) file a ∧
    (¬IsSound tree searchPath a ∨ TransGen (Includes tree searchPath) a a)
  cycle : ∀ including resolved span, e = .invalidInput including (.includeCycle resolved) span →
    ∃ a b, (tree.file? including).map Prod.fst = some a ∧
      (tree.file? resolved).map Prod.fst = some b ∧
      ReflTransGen (Includes tree searchPath) file a ∧ Includes tree searchPath a b ∧
      ReflTransGen (Includes tree searchPath) b a

theorem Fails.head {a b : Location} {e : Error} (h : Fails tree searchPath b e)
    (hab : Includes tree searchPath a b) : Fails tree searchPath a e where
  exists_fault := by
    obtain ⟨c, hbc, hc⟩ := h.exists_fault
    exact ⟨c, .head hab hbc, hc⟩
  cycle including resolved span he := by
    obtain ⟨c, d, hc, hd, hbc, hcd, hdc⟩ := h.cycle including resolved span he
    exact ⟨c, d, hc, hd, .head hab hbc, hcd, hdc⟩

theorem fails_of_readFile {path : Path} {location : Location} {content : ByteArray} {e : Error}
    (hcontent : tree.fileAt location = some content) (h : readFile path content = .error e) :
    Fails tree searchPath location e := by
  obtain ⟨hnone, hcycle⟩ := fault_of_readFile hcontent h
  refine ⟨⟨location, .refl, .inl ?_⟩, fun including resolved span he ↦
    absurd he (hcycle including resolved span)⟩
  intro hsound
  obtain ⟨_, _, hsome, -⟩ := hsound
  rw [hnone] at hsome
  cases hsome

section Target

variable {stop : Stop} {above : List Stop} {source : SourceText} {stack : List Identity}
  {target : String} {targets : List String}
  (h : Following tree searchPath root stop above source stack (target :: targets))
  (hlimit : SpelledWithinLimit tree searchPath root)

include h hlimit

theorem fails_of_missing
    (hfirst : firstFile? tree (candidates searchPath source target) = none) :
    Fails tree searchPath stop.location
      (source.errorAt (.missingInclude target searchPath) target) := by
  have hresolve := h.resolve_eq hlimit
  rw [hfirst, Option.map_none] at hresolve
  obtain ⟨-, -, -, manifest, own, hread, hsub⟩ := h
  refine ⟨⟨stop.location, .refl, .inl ?_⟩, ?_⟩
  · intro hsound
    obtain ⟨manifest', own', hread', hall⟩ := hsound
    obtain ⟨rfl, rfl⟩ := Prod.mk.inj (Option.some.inj (hread.symm.trans hread'))
    obtain ⟨b, hb⟩ := hall target (List.cons_subset.1 hsub).1
    rw [hresolve] at hb
    cases hb
  · intro including resolved span h
    cases h

theorem fails_of_cycle {path : Path} {location : Location} {content : ByteArray}
    (hfirst : firstFile? tree (candidates searchPath source target) =
      some (path, location, content))
    (hs : tree.identity path ∈ stack) :
    Fails tree searchPath stop.location (source.errorAt (.includeCycle path) target) := by
  have hincludes := h.includes hfirst hlimit
  have hback := h.reachable hfirst hlimit hs
  refine ⟨⟨stop.location, .refl, .inr (.head' hincludes hback)⟩, ?_⟩
  intro including resolved span heq
  obtain ⟨-, hfile⟩ := file?_of_firstFile? hfirst
  obtain ⟨content', hfile'⟩ := h.chain.exists_file? stop List.mem_cons_self
  rw [SourceText.errorAt, h.path_eq] at heq
  cases heq
  exact ⟨stop.location, location, by rw [hfile']; rfl, by rw [hfile]; rfl, .refl, hincludes, hback⟩

end Target

theorem fails_of_loadIncludes (hlimit : SpelledWithinLimit tree searchPath root)
    (source : SourceText) (stack loaded : List Identity) (targets : List String) :
    ∀ stop above e, Following tree searchPath root stop above source stack targets →
      loadIncludes tree searchPath source stack loaded targets = .error e →
      Fails tree searchPath stop.location e := by
  induction source, stack, loaded, targets using loadIncludes.induct tree searchPath with
  | case1 source stack loaded =>
    intro stop above e _ h
    rw [loadIncludes] at h
    cases h
  | case2 source stack loaded target targets hfirst =>
    intro stop above e hfollow h
    rw [loadIncludes_missing hfirst] at h
    obtain rfl := Except.error.inj h
    exact fails_of_missing hfollow hlimit hfirst
  | case3 source stack loaded target targets path location content hfirst hs =>
    intro stop above e hfollow h
    rw [loadIncludes_cycle hfirst hs] at h
    obtain rfl := Except.error.inj h
    exact fails_of_cycle hfollow hlimit hfirst hs
  | case4 source stack loaded target targets path location content hfirst hs hl ih =>
    intro stop above e hfollow h
    rw [loadIncludes_again hfirst hs hl] at h
    exact ih stop above e hfollow.tail h
  | case5 source stack loaded target targets path location content hfirst hs hl ihin ihout =>
    intro stop above e hfollow h
    have hincludes := hfollow.includes hfirst hlimit
    have hcontent := (FileTree.file?_eq_some_iff.1 (file?_of_firstFile? hfirst).2).2.2
    simp only [loadIncludes_new hfirst hs hl, Except.bind_eq_error_iff] at h
    rcases h with hfile | ⟨⟨included, manifest, own⟩, hfile, h⟩
    · exact (fails_of_readFile hcontent hfile).head hincludes
    · rcases h with h | ⟨⟨nested, between⟩, -, h | ⟨⟨others, last⟩, -, h⟩⟩
      · exact (ihin included manifest ⟨path, location⟩ (stop :: above) e
          (hfollow.enter hfirst hs hfile).1 h).head hincludes
      · exact ihout between stop above e hfollow.tail h
      · cases h

section Unfolded

variable (tree searchPath) in
/-- Everything that is loaded to the end has a preorder. -/
def Unfolded (stack loaded : List Identity) : Prop :=
  ∀ path location content, tree.file? path = some (location, content) →
    tree.identity path ∈ loaded → tree.identity path ∉ stack →
      ∃ walk, Unfolds tree searchPath [location] walk

variable {stack loaded : List Identity} {path : Path} {location : Location} {content : ByteArray}

theorem Unfolded.push {identity : Identity} (h : Unfolded tree searchPath stack loaded) :
    Unfolded tree searchPath (identity :: stack) (identity :: loaded) := by
  intro path location content hfile hl hs
  obtain ⟨hne, hs⟩ := not_or.1 (fun h ↦ hs (List.mem_cons.2 h))
  exact h path location content hfile ((List.mem_cons.1 hl).resolve_left hne) hs

theorem Unfolded.pop (hfile : tree.file? path = some (location, content)) {walk : List Location}
    (hwalk : Unfolds tree searchPath [location] walk)
    (h : Unfolded tree searchPath (tree.identity path :: stack) loaded) :
    Unfolded tree searchPath stack loaded := by
  intro path' location' content' hfile' hl hs
  by_cases heq : tree.identity path' = tree.identity path
  · exact FileTree.location_eq_of_identity_eq heq hfile' hfile ▸ ⟨walk, hwalk⟩
  · exact h path' location' content' hfile' hl (by simp [heq, hs])

/-- What is loaded without a fault has a preorder, however its files are spelled. -/
theorem exists_unfolds (hlimit : SpelledWithinLimit tree searchPath root) (source : SourceText)
    (stack loaded : List Identity) (targets : List String) :
    ∀ stop above models loaded', Following tree searchPath root stop above source stack targets →
      Unfolded tree searchPath stack loaded →
      loadIncludes tree searchPath source stack loaded targets = .ok (models, loaded') →
      (∃ files walk, targets.map (resolve tree searchPath stop.location) = files.map some ∧
        Unfolds tree searchPath files walk) ∧ Unfolded tree searchPath stack loaded' := by
  induction source, stack, loaded, targets using loadIncludes.induct tree searchPath with
  | case1 source stack loaded =>
    intro stop above models loaded' _ hunfolded h
    rw [loadIncludes] at h
    obtain ⟨-, rfl⟩ := Prod.mk.inj (Except.ok.inj h)
    exact ⟨⟨[], [], rfl, .nil⟩, hunfolded⟩
  | case2 source stack loaded target targets hfirst =>
    intro stop above models loaded' _ _ h
    rw [loadIncludes_missing hfirst] at h
    cases h
  | case3 source stack loaded target targets path location content hfirst hs =>
    intro stop above models loaded' _ _ h
    rw [loadIncludes_cycle hfirst hs] at h
    cases h
  | case4 source stack loaded target targets path location content hfirst hs hl ih =>
    intro stop above models loaded' hfollow hunfolded h
    rw [loadIncludes_again hfirst hs hl] at h
    obtain ⟨part, hpart⟩ :=
      hunfolded path location content (file?_of_firstFile? hfirst).2 hl hs
    obtain ⟨⟨files, walk, hfiles, hwalk⟩, hunfolded'⟩ :=
      ih stop above models loaded' hfollow.tail hunfolded h
    refine ⟨⟨location :: files, part ++ walk, ?_, hpart.append hwalk⟩, hunfolded'⟩
    rw [List.map_cons, List.map_cons, hfiles, hfollow.resolve_eq_some hfirst hlimit]
  | case5 source stack loaded target targets path location content hfirst hs hl ihin ihout =>
    intro stop above models loaded' hfollow hunfolded h
    simp only [loadIncludes_new hfirst hs hl, Except.bind_eq_ok_iff] at h
    obtain ⟨⟨included, manifest, own⟩, hfile, ⟨nested, between⟩, hnested,
      ⟨others, last⟩, hothers, hpair⟩ := h
    obtain ⟨rfl, rfl⟩ := Prod.mk.inj (Except.ok.inj hpair)
    obtain ⟨hfollow', hread⟩ := hfollow.enter hfirst hs hfile
    obtain ⟨⟨files', walk', hfiles', hwalk'⟩, hbetween⟩ := ihin included manifest ⟨path, location⟩
      (stop :: above) nested between hfollow' hunfolded.push hnested
    have hpart := Unfolds.cons hread hfiles' hwalk' .nil
    obtain ⟨⟨files, walk, hfiles, hwalk⟩, hunfolded'⟩ := ihout between stop above others last
      hfollow.tail (hbetween.pop (file?_of_firstFile? hfirst).2 hpart) hothers
    refine ⟨⟨location :: files, _, ?_, hpart.append hwalk⟩, hunfolded'⟩
    rw [List.map_cons, List.map_cons, hfiles, hfollow.resolve_eq_some hfirst hlimit]

end Unfolded

section Whole

variable (tree searchPath root)

def loadFrom : Except Error (List (UnitModel Entry)) :=
  tree.readSource root >>= load tree searchPath

variable {tree searchPath root} {location : Location} {content : ByteArray}

theorem loadFrom_eq (h : tree.file? root = some (location, content)) :
    loadFrom tree searchPath root = (do
      let (source, manifest, models) ← readFile root content
      let (nested, _) ← loadIncludes tree searchPath source [tree.identity root]
        [tree.identity root] manifest.includes
      return models ++ nested) := by
  rw [loadFrom, FileTree.readSource, h]
  simp only [readFile, SourceText.ofBytes]
  cases String.fromUTF8? content with
  | none => rfl
  | some text =>
    change load tree searchPath ⟨root, text⟩ = _
    simp only [load, bind_assoc, pure_bind]
    rfl

theorem unfolds_of_loadFrom (hlimit : SpelledWithinLimit tree searchPath root)
    (hroot : tree.file? root = some (location, content)) {models : List (UnitModel Entry)}
    (h : loadFrom tree searchPath root = .ok models) :
    ∃ walk, Unfolds tree searchPath [location] walk := by
  simp only [loadFrom_eq hroot, Except.bind_eq_ok_iff] at h
  obtain ⟨⟨source, manifest, own⟩, hfile, ⟨nested, loaded⟩, hnested, -⟩ := h
  obtain ⟨hfollow, hread⟩ := Following.start hroot hfile
  have hstart : Unfolded tree searchPath [tree.identity root] [tree.identity root] :=
    fun _ _ _ _ hl hs ↦ absurd hl hs
  obtain ⟨⟨files, walk, hfiles, hwalk⟩, -⟩ := exists_unfolds hlimit source [tree.identity root]
    [tree.identity root] manifest.includes ⟨root, location⟩ [] nested loaded hfollow hstart hnested
  exact ⟨_, .cons hread hfiles hwalk .nil⟩

theorem loads_of_loadFrom (hlimit : SpelledWithinLimit tree searchPath root)
    (hnamed : NamedWithinLimit tree searchPath root)
    (hroot : tree.file? root = some (location, content)) {models : List (UnitModel Entry)}
    (h : loadFrom tree searchPath root = .ok models) :
    ∃ walk, Unfolds tree searchPath [location] walk ∧
      models = walk.eraseDups.flatMap (modelsAt tree) := by
  simp only [loadFrom_eq hroot, Except.bind_eq_ok_iff] at h
  obtain ⟨⟨source, manifest, own⟩, hfile, ⟨nested, loaded⟩, hnested, hpair⟩ := h
  obtain rfl := Except.ok.inj hpair
  obtain ⟨hfollow, hread⟩ := Following.start hroot hfile
  have hidentity : tree.identity root = .found location := hfollow.chain.identity_eq hnamed
  have hset : Settled tree searchPath [location] [location] := fun a ha has ↦ absurd ha has
  obtain ⟨loaded', files, walk, -, hloads⟩ := exists_loads hlimit hnamed source
    [tree.identity root] [tree.identity root] manifest.includes ⟨root, location⟩ [] [location]
    nested loaded hfollow (by rw [hidentity]; rfl) hset hnested
  refine ⟨location :: walk ++ [], .cons hread hloads.resolved hloads.unfolds .nil, ?_⟩
  have hnew : [].newcomers (location :: walk) = location :: [location].newcomers walk :=
    List.newcomers_cons (by simp)
  rw [List.newcomers, List.removeAll_nil] at hnew
  rw [List.append_nil, hnew, List.flatMap_cons, hloads.models_eq]
  simp [modelsAt, hread]

theorem fails_of_loadFrom (hlimit : SpelledWithinLimit tree searchPath root)
    (hroot : tree.file? root = some (location, content)) {e : Error}
    (h : loadFrom tree searchPath root = .error e) : Fails tree searchPath location e := by
  have hcontent := (FileTree.file?_eq_some_iff.1 hroot).2.2
  simp only [loadFrom_eq hroot, Except.bind_eq_error_iff] at h
  rcases h with hfile | ⟨⟨source, manifest, own⟩, hfile, hnested | ⟨⟨nested, loaded⟩, -, h⟩⟩
  · exact fails_of_readFile hcontent hfile
  · exact fails_of_loadIncludes hlimit source [tree.identity root] [tree.identity root]
      manifest.includes ⟨root, location⟩ [] e (Following.start hroot hfile).1 hnested
  · cases h

theorem loadFrom_of_file?_eq_none (h : tree.file? root = none) :
    loadFrom tree searchPath root = .error (.inputUnreadable root) := by
  rw [loadFrom, FileTree.readSource, h]
  rfl

end Whole

end PairedSource.Manifest
