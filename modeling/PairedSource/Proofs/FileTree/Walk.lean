import PairedSource.FileTree.Write
import PairedSource.Proofs.Except
import PairedSource.Proofs.Path.Segments

namespace PairedSource

namespace Node

variable {node : Node} {a : Location} {children : List (String × Node)}

theorem find?_append (node : Node) (a b : Location) :
    node.find? (a ++ b) = (node.find? a).bind (·.find? b) := by
  induction a generalizing node with
  | nil => simp [find?]
  | cons name a ih =>
    cases node with
    | file content => simp [find?]
    | directory children =>
      simp only [List.cons_append, find?]
      cases children.lookup name with
      | none => rfl
      | some child => exact ih child

theorem find?_child (h : node.find? a = some (.directory children)) (name : String) :
    node.find? (a ++ [name]) = children.lookup name := by
  rw [find?_append, h, Option.bind_some, find?]
  cases children.lookup name <;> rfl

theorem exists_directory_of_find?_append {b : Location} {found : Node}
    (h : node.find? (a ++ b) = some found) (hb : b ≠ []) :
    ∃ children, node.find? a = some (.directory children) := by
  rw [find?_append] at h
  obtain ⟨above, ha, hf⟩ := Option.bind_eq_some_iff.1 h
  cases above with
  | directory children => exact ⟨children, ha⟩
  | file content =>
    obtain ⟨name, rest, rfl⟩ := List.exists_cons_of_ne_nil hb
    simp [find?] at hf

theorem exists_directory_dropLast (h : node.find? a = some (.directory children)) :
    ∃ children', node.find? a.dropLast = some (.directory children') := by
  by_cases ha : a = []
  · exact ⟨children, by simpa [ha] using h⟩
  · rw [← List.dropLast_concat_getLast ha] at h
    exact exists_directory_of_find?_append h (by simp)

end Node

namespace FileTree

variable (tree : FileTree)

def walk (start : Location) (segments : List String) : Except PathFault Location :=
  segments.foldlM tree.step start

variable {tree} {a b : Location} {s : String} {segments : List String}

theorem isName_iff : isName s = true ↔ s ≠ "" ∧ s ≠ "." ∧ s ≠ ".." := by
  simp [isName, and_assoc]

theorem walk_nil : tree.walk a [] = .ok a := rfl

theorem walk_cons : tree.walk a (s :: segments) = tree.step a s >>= (tree.walk · segments) :=
  List.foldlM_cons

theorem walk_append {more : List String} :
    tree.walk a (segments ++ more) = tree.walk a segments >>= (tree.walk · more) :=
  List.foldlM_append

theorem walk_singleton : tree.walk a [s] = tree.step a s := by
  simp [walk]

theorem step_of_directory {children : List (String × Node)}
    (h : tree.root.find? a = some (.directory children)) :
    tree.step a s =
      if s = "" ∨ s = "." then .ok a
      else if s = ".." then .ok a.dropLast
      else if (children.lookup s).isSome then .ok (a ++ [s])
      else .error .absent := by
  simp only [step, h]

theorem step_idle {children : List (String × Node)}
    (h : tree.root.find? a = some (.directory children)) (hs : s = "" ∨ s = ".") :
    tree.step a s = .ok a := by
  rw [step_of_directory h, if_pos hs]

theorem step_name {children : List (String × Node)}
    (h : tree.root.find? a = some (.directory children)) (hs : isName s = true) :
    tree.step a s = if (children.lookup s).isSome then .ok (a ++ [s]) else .error .absent := by
  obtain ⟨hempty, hdot, hup⟩ := isName_iff.1 hs
  rw [step_of_directory h, if_neg (not_or.2 ⟨hempty, hdot⟩), if_neg hup]

/-- A step leaves from a directory. It stays for a dot, goes up for two dots, and down for a name
that is there. -/
theorem step_eq_ok (h : tree.step a s = .ok b) :
    ∃ children, tree.root.find? a = some (.directory children) ∧
      ((s = "" ∨ s = ".") ∧ b = a ∨ s = ".." ∧ b = a.dropLast ∨
        isName s = true ∧ (children.lookup s).isSome = true ∧ b = a ++ [s]) := by
  rcases hf : tree.root.find? a with _ | ⟨content⟩ | ⟨children⟩
  · simp [step, hf] at h
  · simp [step, hf] at h
  · refine ⟨children, rfl, ?_⟩
    rw [step_of_directory hf] at h
    by_cases hidle : s = "" ∨ s = "."
    · rw [if_pos hidle, Except.ok.injEq] at h
      exact .inl ⟨hidle, h.symm⟩
    · rw [if_neg hidle] at h
      by_cases hup : s = ".."
      · rw [if_pos hup, Except.ok.injEq] at h
        exact .inr (.inl ⟨hup, h.symm⟩)
      · rw [if_neg hup] at h
        by_cases hs : (children.lookup s).isSome = true
        · rw [if_pos hs, Except.ok.injEq] at h
          obtain ⟨hempty, hdot⟩ := not_or.1 hidle
          exact .inr (.inr ⟨isName_iff.2 ⟨hempty, hdot, hup⟩, hs, h.symm⟩)
        · rw [if_neg hs] at h
          cases h

/-- A dot before a step changes nothing, not even the fault. -/
theorem walk_idle_bind :
    tree.walk a [""] >>= (tree.walk · (s :: segments)) = tree.walk a (s :: segments) := by
  rw [walk_singleton, walk_cons]
  rcases hf : tree.root.find? a with _ | ⟨content⟩ | ⟨children⟩
  · simp [step, hf, bind, Except.bind]
  · simp [step, hf, bind, Except.bind]
  · rw [step_idle hf (.inl rfl)]
    exact walk_cons

theorem walk_file {content : ByteArray} (h : tree.walk a (segments ++ [s]) = .ok b)
    (hb : tree.root.find? b = some (.file content)) :
    ∃ c children, tree.walk a segments = .ok c ∧
      tree.root.find? c = some (.directory children) ∧ isName s = true ∧ b = c ++ [s] := by
  rw [walk_append, Except.bind_eq_ok_iff] at h
  obtain ⟨c, hc, hs⟩ := h
  rw [walk_singleton] at hs
  obtain ⟨children, hdir, hcase⟩ := step_eq_ok hs
  rcases hcase with ⟨-, rfl⟩ | ⟨-, rfl⟩ | ⟨hn, -, rfl⟩
  · simp [hdir] at hb
  · obtain ⟨children', hup⟩ := Node.exists_directory_dropLast hdir
    simp [hup] at hb
  · exact ⟨c, children, hc, hdir, hn, rfl⟩

end FileTree

end PairedSource
