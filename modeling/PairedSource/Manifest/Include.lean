import PairedSource.FileTree.Identity
import PairedSource.InputFile
import PairedSource.Manifest

namespace PairedSource.Manifest

variable (tree : FileTree) (searchPath : Option Path)

/-- Where an include may be: next to the file that names it, then in the search path. -/
def candidates (source : SourceText) (target : String) : List Path :=
  source.relative target :: (searchPath.map (·.join ⟨target⟩)).toList

def firstFile? (paths : List Path) : Option (Path × Location × ByteArray) :=
  paths.findSome? fun path ↦ (tree.file? path).map (path, ·)

theorem isSome_file?_of_firstFile? {paths : List Path} {path : Path} {found : Location × ByteArray}
    (h : firstFile? tree paths = some (path, found)) : (tree.file? path).isSome = true := by
  obtain ⟨p, _, hp⟩ := List.exists_of_findSome?_eq_some h
  obtain ⟨_, hf, hpair⟩ := Option.map_eq_some_iff.1 hp
  obtain ⟨rfl, -⟩ := Prod.mk.inj hpair
  rw [hf]
  rfl

noncomputable def remaining (stack : List Identity) : Nat :=
  (tree.identities.filter (· ∉ stack)).length

theorem remaining_cons_lt {stack : List Identity} {identity : Identity}
    (h : identity ∈ tree.identities) (hs : identity ∉ stack) :
    remaining tree (identity :: stack) < remaining tree stack := by
  have hsplit : tree.identities.filter (· ∉ identity :: stack) =
      (tree.identities.filter (· ∉ stack)).filter (· ≠ identity) := by
    rw [List.filter_filter]
    refine List.filter_congr fun l _ ↦ ?_
    simp [not_or]
  rw [remaining, remaining, hsplit, List.length_filter_lt_length_iff_exists]
  exact ⟨identity, List.mem_filter.2 ⟨h, by simpa using hs⟩, by simp⟩

/-- The models of the includes of a file, each followed by those of its own includes. `stack` holds
the files that are being loaded and `loaded` all that ever were; a file of the second kind is not
loaded again. Gives also the files that are loaded afterwards. -/
def loadIncludes (source : SourceText) (stack loaded : List Identity) :
    List String → Except Error (List (UnitModel Entry) × List Identity)
  | [] => .ok ([], loaded)
  | target :: targets =>
    match _h : firstFile? tree (candidates searchPath source target) with
    | none => .error (source.errorAt (.missingInclude target searchPath) target)
    | some (path, _, content) =>
      if _hs : tree.identity path ∈ stack then .error (source.errorAt (.includeCycle path) target)
      else if tree.identity path ∈ loaded then loadIncludes source stack loaded targets
      else do
        let included ← SourceText.ofBytes path content
        let manifest ← parse included
        let models ← manifest.toModels included
        let (nested, loaded) ← loadIncludes included (tree.identity path :: stack)
          (tree.identity path :: loaded) manifest.includes
        let (others, loaded) ← loadIncludes source stack loaded targets
        return (models ++ nested ++ others, loaded)
termination_by targets => (remaining tree stack, targets.length)
decreasing_by
  · exact Prod.Lex.right _ (Nat.lt_succ_self _)
  · exact Prod.Lex.left _ _ (remaining_cons_lt tree
      (tree.identity_mem_identities (isSome_file?_of_firstFile? tree ‹_›)) ‹_›)
  · exact Prod.Lex.right _ (Nat.lt_succ_self _)

/-- The models of a manifest and of the manifests that it includes, each file once: the models of a
file stand before those of its includes. -/
def load (source : SourceText) : Except Error (List (UnitModel Entry)) := do
  let manifest ← parse source
  let models ← manifest.toModels source
  let start := [tree.identity source.path]
  let (nested, _) ← loadIncludes tree searchPath source start start manifest.includes
  return models ++ nested

end PairedSource.Manifest
