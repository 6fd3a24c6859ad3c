import PairedSource.Proofs.Association
import PairedSource.Proofs.FileTree.Agree

namespace PairedSource

def FileTree.isEntryName (name : String) : Bool :=
  isName name && !name.toList.contains '/' && !name.toList.contains '\x00'

namespace Node

mutual

/-- Whether all directories list names that a path can spell, each of them once. -/
def isWellNamed : Node → Bool
  | .file _ => true
  | .directory children => decide (children.map Prod.fst).Nodup && areWellNamed children

def areWellNamed : List (String × Node) → Bool
  | [] => true
  | (name, child) :: rest =>
    FileTree.isEntryName name && child.isWellNamed && areWellNamed rest

end

variable {node child : Node} {name : String} {children : List (String × Node)}

theorem of_mem_of_areWellNamed (h : areWellNamed children = true)
    (hmem : (name, child) ∈ children) :
    FileTree.isEntryName name = true ∧ child.isWellNamed = true := by
  induction children with
  | nil => cases hmem
  | cons entry rest ih =>
    obtain ⟨other, node⟩ := entry
    simp only [areWellNamed, Bool.and_eq_true] at h
    rcases List.mem_cons.1 hmem with heq | hmem
    · obtain ⟨rfl, rfl⟩ := Prod.mk.inj heq
      exact h.1
    · exact ih h.2 hmem

theorem isWellNamed_of_find? {location : Location} {found : Node} (h : node.isWellNamed = true)
    (hfound : node.find? location = some found) : found.isWellNamed = true := by
  induction location generalizing node with
  | nil =>
    obtain rfl : node = found := by simpa [find?] using hfound
    exact h
  | cons name rest ih =>
    cases node with
    | file content => cases hfound
    | directory children =>
      simp only [isWellNamed, Bool.and_eq_true] at h
      simp only [find?] at hfound
      split at hfound
      · rename_i child hlookup
        have hmem := Association.mem_of_lookup_eq_some hlookup
        exact ih (of_mem_of_areWellNamed h.2 hmem).2 hfound
      · cases hfound

end Node

namespace FileTree

structure WellNamed (tree : FileTree) : Prop where
  nodup : ∀ {location children}, tree.root.find? location = some (.directory children) →
    (children.map Prod.fst).Nodup
  isEntryName : ∀ {location children}, tree.root.find? location = some (.directory children) →
    ∀ name ∈ children.map Prod.fst, isEntryName name = true

variable {tree other : FileTree} {location : Location} {children : List (String × Node)}
  {name : String}

theorem wellNamed_of_isWellNamed (h : tree.root.isWellNamed = true) : tree.WellNamed := by
  constructor
  · intro location children hfound
    have hchecked := Node.isWellNamed_of_find? h hfound
    simp only [Node.isWellNamed, Bool.and_eq_true, decide_eq_true_eq] at hchecked
    exact hchecked.1
  · intro location children hfound name hname
    have hchecked := Node.isWellNamed_of_find? h hfound
    simp only [Node.isWellNamed, Bool.and_eq_true] at hchecked
    obtain ⟨⟨_, child⟩, hmem, rfl⟩ := List.mem_map.1 hname
    exact (Node.of_mem_of_areWellNamed hchecked.2 hmem).1

theorem isEntryName_iff : isEntryName name = true ↔
    isName name = true ∧ '/' ∉ name.toList ∧ '\x00' ∉ name.toList := by
  simp [isEntryName, and_assoc]

theorem mem_names_iff (h : tree.root.find? location = some (.directory children)) :
    name ∈ children.map Prod.fst ↔ (tree.occupant? (location ++ [name])).isSome = true := by
  rw [occupant?_child h, Option.isSome_map, Association.isSome_lookup_iff]

theorem Same.symm (h : tree.Same other) : other.Same tree :=
  ⟨h.workingDirectory.symm, fun l ↦ (h.entry l).symm⟩

theorem Same.agree (h : tree.Same other) : Agree (fun _ ↦ True) tree other :=
  ⟨h.workingDirectory, fun l ↦ by rw [h.entry l], fun l _ ↦ h.entry l⟩

end FileTree

end PairedSource
