import PairedSource.FileTree.Plant
import PairedSource.Proofs.FileTree.Later

namespace PairedSource

section Uproot

variable {α β : Type} [BEq α] [LawfulBEq α]

theorem Association.lookup_erase_of_ne {key other : α} (h : other ≠ key) (l : List (α × β)) :
    (erase key l).lookup other = l.lookup other := by
  induction l with
  | nil => rfl
  | cons entry rest ih =>
    obtain ⟨k, value⟩ := entry
    by_cases hk : k = key
    · simp [erase, hk, List.lookup_cons, beq_false_of_ne h]
    · simp [erase, hk, List.lookup_cons, ih]

/-- What is taken away is gone with all below it, as long as there was no more than one node of the
name. Everything else stays. -/
theorem Node.find?_uproot {node : Node} {location : Location} (hne : location ≠ [])
    (hthere : (node.find? location).isSome = true)
    (hgone : (node.uproot location).find? location = none) (l : Location) :
    ((node.uproot location).find? l).map content? =
      if location <+: l then none else (node.find? l).map content? := by
  induction location generalizing node l with
  | nil => exact absurd rfl hne
  | cons name rest ih =>
    cases node with
    | file content => simp [find?] at hthere
    | directory children =>
      cases l with
      | nil =>
        cases rest with
        | nil => simp [uproot, find?, content?]
        | cons s rest =>
          simp only [uproot, Node.children]
          cases children.lookup name <;> simp [find?, content?]
      | cons t l =>
        simp only [List.cons_prefix_cons]
        cases rest with
        | nil =>
          simp only [uproot, Node.children, find?] at hgone ⊢
          by_cases ht : t = name
          · subst ht
            have hnone : (Association.erase t children).lookup t = none := by
              cases hl : (Association.erase t children).lookup t with
              | none => rfl
              | some child => simp [hl] at hgone
            simp [hnone]
          · rw [Association.lookup_erase_of_ne ht, if_neg (by simp [Ne.symm ht])]
        | cons s rest =>
          obtain ⟨child, hchild⟩ : ∃ child, children.lookup name = some child := by
            cases hl : children.lookup name with
            | none => simp [find?, hl] at hthere
            | some child => exact ⟨child, rfl⟩
          simp only [uproot, Node.children, hchild] at hgone ⊢
          by_cases ht : t = name
          · subst ht
            simp only [find?, Association.lookup_alter_self, hchild] at hgone hthere ⊢
            simpa using ih (by simp) hthere hgone l
          · rw [find?, Association.lookup_alter_of_ne ht, find?, if_neg (by simp [Ne.symm ht])]

end Uproot

namespace FileTree

variable {tree : FileTree} {location : Location} {cleared : FileTree}

variable (tree location cleared) in
structure Clears : Prop where
  workingDirectory : cleared.workingDirectory = tree.workingDirectory
  gone : ∀ l, location <+: l → cleared.occupant? l = none
  other : ∀ l, ¬location <+: l → cleared.occupant? l = tree.occupant? l

variable (tree location) in
def uproot : FileTree :=
  { tree with root := tree.root.uproot location }

theorem clears_uproot (hne : location ≠ []) (hthere : (tree.occupant? location).isSome = true)
    (hgone : (tree.uproot location).occupant? location = none) :
    Clears tree location (tree.uproot location) := by
  have hfind : ∀ l, _ := Node.find?_uproot hne (by simpa [occupant?] using hthere)
    (by simpa [occupant?, uproot] using hgone)
  exact ⟨rfl, fun l hl ↦ (hfind l).trans (if_pos hl), fun l hl ↦ (hfind l).trans (if_neg hl)⟩

namespace Clears

variable (h : Clears tree location cleared)

include h

theorem later : Later (location <+: ·) cleared tree := by
  have hother : ∀ l, (cleared.occupant? l).isSome = true →
      cleared.occupant? l = tree.occupant? l := by
    intro l hl
    by_cases hbelow : location <+: l
    · rw [h.gone l hbelow] at hl
      cases hl
    · exact h.other l hbelow
  refine ⟨h.workingDirectory.symm, fun l hl ↦ ?_, fun l hl ↦ ?_,
    fun l hl ↦ fileAt_eq_of_occupant?_eq (h.other l hl).symm⟩
  · rw [← hother l (by rw [hl]; rfl), hl]
  · rwa [← hother l hl]

end Clears

end FileTree

end PairedSource
