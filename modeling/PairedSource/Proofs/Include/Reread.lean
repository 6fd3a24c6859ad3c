import PairedSource.Proofs.Include.LoadFrom

namespace PairedSource.Manifest

variable {tree other : FileTree} {searchPath : Option Path} {root : Path}

theorem firstFile?_congr {paths : List Path}
    (h : ∀ path ∈ paths, other.file? path = tree.file? path) :
    firstFile? other paths = firstFile? tree paths := by
  induction paths with
  | nil => rfl
  | cons path paths ih =>
    have htail := ih fun p hp ↦ h p (List.mem_cons_of_mem path hp)
    rw [firstFile?, firstFile?] at htail
    rw [firstFile?, firstFile?, List.findSome?_cons, List.findSome?_cons,
      h path List.mem_cons_self, htail]

variable (tree other searchPath root) in
/-- Another tree has the same files at all paths that are looked at when a manifest is loaded. -/
structure ReadsAlike : Prop where
  workingDirectory : other.workingDirectory = tree.workingDirectory
  input : other.file? root = tree.file? root
  includes : ∀ stop above, Chain tree searchPath root (stop :: above) →
    ∀ manifest models, readAt tree stop.location = some (manifest, models) →
      ∀ target ∈ manifest.includes, ∀ source : SourceText, source.path = stop.path →
        ∀ path ∈ candidates searchPath source target, other.file? path = tree.file? path

namespace ReadsAlike

variable (h : ReadsAlike tree other searchPath root)

include h

theorem identity_eq {path : Path} (hsome : (tree.file? path).isSome = true)
    (hfile : other.file? path = tree.file? path) : other.identity path = tree.identity path := by
  obtain ⟨⟨location, content⟩, hfound⟩ := Option.isSome_iff_exists.1 hsome
  rw [FileTree.identity_of_file? hfound, FileTree.identity_of_file? (hfile.trans hfound),
    FileTree.start, FileTree.start, h.workingDirectory]

theorem firstFile?_eq {stop : Stop} {above : List Stop} {source : SourceText}
    {stack : List Identity} {target : String} {targets : List String}
    (hfollow : Following tree searchPath root stop above source stack (target :: targets)) :
    firstFile? other (candidates searchPath source target) =
        firstFile? tree (candidates searchPath source target) ∧
      ∀ path found, firstFile? tree (candidates searchPath source target) = some (path, found) →
        other.identity path = tree.identity path := by
  obtain ⟨hchain, hsource, -, manifest, models, hread, hsub⟩ := hfollow
  have hlook := h.includes _ _ hchain _ _ hread _ (List.cons_subset.1 hsub).1 _ hsource
  refine ⟨firstFile?_congr hlook, fun path found hfirst ↦ ?_⟩
  obtain ⟨hpath, hfile⟩ := file?_of_firstFile? hfirst
  exact h.identity_eq (Option.isSome_iff_exists.2 ⟨found, hfile⟩) (hlook path hpath)

theorem loadIncludes_eq (source : SourceText) (stack loaded : List Identity)
    (targets : List String) :
    ∀ stop above, Following tree searchPath root stop above source stack targets →
      loadIncludes other searchPath source stack loaded targets =
        loadIncludes tree searchPath source stack loaded targets := by
  induction source, stack, loaded, targets using loadIncludes.induct tree searchPath with
  | case1 source stack loaded =>
    intro stop above _
    rw [loadIncludes, loadIncludes]
  | case2 source stack loaded target targets hfirst =>
    intro stop above hfollow
    have hfirst' := (h.firstFile?_eq hfollow).1.trans hfirst
    rw [loadIncludes_missing hfirst, loadIncludes_missing hfirst']
  | case3 source stack loaded target targets path location content hfirst hs =>
    intro stop above hfollow
    obtain ⟨heq, hidentity⟩ := h.firstFile?_eq hfollow
    rw [loadIncludes_cycle hfirst hs, loadIncludes_cycle (heq.trans hfirst)
      (hidentity _ _ hfirst ▸ hs)]
  | case4 source stack loaded target targets path location content hfirst hs hl ih =>
    intro stop above hfollow
    obtain ⟨heq, hidentity⟩ := h.firstFile?_eq hfollow
    rw [loadIncludes_again hfirst hs hl, loadIncludes_again (heq.trans hfirst)
      (hidentity _ _ hfirst ▸ hs) (hidentity _ _ hfirst ▸ hl)]
    exact ih stop above hfollow.tail
  | case5 source stack loaded target targets path location content hfirst hs hl ihin ihout =>
    intro stop above hfollow
    obtain ⟨heq, hidentity⟩ := h.firstFile?_eq hfollow
    rw [loadIncludes_new hfirst hs hl, loadIncludes_new (heq.trans hfirst)
      (hidentity _ _ hfirst ▸ hs) (hidentity _ _ hfirst ▸ hl), hidentity _ _ hfirst]
    cases hown : readFile path content with
    | error e => rfl
    | ok result =>
      obtain ⟨included, manifest, own⟩ := result
      simp only [Except.ok_bind]
      rw [ihin included manifest ⟨path, location⟩ (stop :: above)
        (hfollow.enter hfirst hs hown).1]
      refine bind_congr fun result ↦ ?_
      obtain ⟨nested, between⟩ := result
      simp only
      rw [ihout between stop above hfollow.tail]

theorem loadFrom_eq : loadFrom other searchPath root = loadFrom tree searchPath root := by
  cases hfile : tree.file? root with
  | none => rw [loadFrom_of_file?_eq_none hfile, loadFrom_of_file?_eq_none (h.input.trans hfile)]
  | some found =>
    obtain ⟨location, content⟩ := found
    rw [Manifest.loadFrom_eq hfile, Manifest.loadFrom_eq (h.input.trans hfile),
      h.identity_eq (by rw [hfile]; rfl) h.input]
    cases hown : readFile root content with
    | error e => rfl
    | ok result =>
      obtain ⟨source, manifest, own⟩ := result
      simp only [Except.ok_bind]
      rw [h.loadIncludes_eq source [tree.identity root] [tree.identity root] manifest.includes
        ⟨root, location⟩ [] (Following.start hfile hown).1]

end ReadsAlike

end PairedSource.Manifest
