import Mathlib.Data.List.Induction
import PairedSource.Proofs.Lists
import PairedSource.Settings

namespace PairedSource.Settings

theorem merge_assoc (a b c : Settings) : (a.merge b).merge c = a.merge (b.merge c) := by
  simp only [merge, Option.orElse_eq_orElse, Option.orElse_eq_or, Option.or_assoc]

theorem empty_merge (settings : Settings) : ({} : Settings).merge settings = settings := by
  simp [merge]

theorem merge_empty (settings : Settings) : settings.merge {} = settings := by
  simp [merge]

def stack (layers : List Settings) : Settings :=
  layers.foldl merge {}

theorem stack_cons (settings : Settings) (layers : List Settings) :
    stack (settings :: layers) = settings.merge (stack layers) := by
  have hfoldl : ∀ base, layers.foldl merge base = base.merge (stack layers) := by
    intro base
    induction layers using List.reverseRecOn with
    | nil => exact (merge_empty base).symm
    | append_singleton layers last ih =>
      simp only [stack, List.foldl_append, List.foldl_cons, List.foldl_nil] at ih ⊢
      rw [ih, merge_assoc]
  rw [stack, List.foldl_cons, empty_merge, hfoldl]

/-- What the last of some layers says that says anything, thing by thing. -/
def lastSaid (layers : List Settings) : Settings where
  outputDir := layers.findSomeRev? outputDir
  searchPath := layers.findSomeRev? searchPath
  namePrefix := layers.findSomeRev? namePrefix
  legacyTarget := layers.findSomeRev? legacyTarget
  skipDeclaration := layers.findSomeRev? skipDeclaration
  aggregate := layers.findSomeRev? aggregate
  aggregateName := layers.findSomeRev? aggregateName

theorem stack_eq_lastSaid (layers : List Settings) : stack layers = lastSaid layers := by
  induction layers with
  | nil => rfl
  | cons settings layers ih =>
    rw [stack_cons, ih]
    simp only [merge, lastSaid, List.findSomeRev?_cons]

end PairedSource.Settings
