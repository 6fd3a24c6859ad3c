import Mathlib.Data.List.Induction
import PairedSource.Proofs.FileTree.Agree

namespace PairedSource.FileTree

variable {tree : FileTree} {a b l : Location} {s : String} {segments front more : List String}
  {fault : PathFault}

def descend (l : Location) (segment : String) : Location :=
  if segment = "" ∨ segment = "." then l
  else if segment = ".." then l.dropLast
  else l ++ [segment]

def destination (start : Location) (segments : List String) : Location :=
  segments.foldl descend start

theorem descend_idle (hs : s = "" ∨ s = ".") : descend l s = l := by
  rw [descend, if_pos hs]

theorem descend_name (hs : isName s = true) : descend l s = l ++ [s] := by
  obtain ⟨hempty, hdot, hup⟩ := isName_iff.1 hs
  rw [descend, if_neg (not_or.2 ⟨hempty, hdot⟩), if_neg hup]

variable (tree l) in
/-- Where a path leads without the last of its segments, or without more of them. -/
def OnTheWay (p : Path) : Prop :=
  ∃ front, front <+: p.segments ∧ front ≠ p.segments ∧ l = destination (tree.start p) front

theorem destination_append : destination a (segments ++ more) =
    destination (destination a segments) more :=
  List.foldl_append

theorem destination_concat : destination a (segments ++ [s]) =
    descend (destination a segments) s :=
  destination_append

theorem destination_dropIdle (l : List String) :
    destination a (Path.dropIdle l).reverse = destination a l.reverse := by
  fun_induction Path.dropIdle l with
  | case1 s t rest hs ih => rw [ih, List.reverse_cons (a := s), destination_concat, descend_idle hs]
  | case2 => rfl
  | case3 => rfl

theorem step_eq_ok_iff_descend : tree.step a s = .ok b ↔
    tree.occupant? a = some none ∧ (tree.occupant? b).isSome = true ∧ b = descend a s := by
  rw [step_eq_ok_iff]
  refine and_congr_right fun hdir ↦ ?_
  constructor
  · intro h
    rcases h with ⟨hs, rfl⟩ | ⟨rfl, rfl⟩ | ⟨hs, hsome, rfl⟩
    · exact ⟨by rw [hdir]; rfl, (descend_idle hs).symm⟩
    · obtain ⟨children, hdir⟩ := occupant?_eq_directory_iff.1 hdir
      have hup := occupant?_eq_directory_iff.2 (Node.exists_directory_dropLast hdir)
      exact ⟨by rw [hup]; rfl, rfl⟩
    · exact ⟨hsome, (descend_name hs).symm⟩
  · intro h
    obtain ⟨hsome, rfl⟩ := h
    by_cases hidle : s = "" ∨ s = "."
    · exact .inl ⟨hidle, descend_idle hidle⟩
    · by_cases hup : s = ".."
      · subst hup
        exact .inr (.inl ⟨rfl, rfl⟩)
      · obtain ⟨hempty, hdot⟩ := not_or.1 hidle
        have hname := isName_iff.2 ⟨hempty, hdot, hup⟩
        exact .inr (.inr ⟨hname, hsome, descend_name hname⟩)

theorem walk_concat : tree.walk a (segments ++ [s]) = tree.walk a segments >>= (tree.step · s) := by
  rw [walk_append]
  exact bind_congr fun _ ↦ walk_singleton

theorem destination_of_walk (h : tree.walk a segments = .ok b) : b = destination a segments := by
  induction segments using List.reverseRecOn generalizing b with
  | nil => exact (Except.ok.inj h).symm
  | append_singleton segments s ih =>
    rw [walk_concat, Except.bind_eq_ok_iff] at h
    obtain ⟨m, hm, hs⟩ := h
    rw [destination_concat, ← ih hm]
    exact (step_eq_ok_iff_descend.1 hs).2.2

theorem isSome_of_walk (ha : (tree.occupant? a).isSome = true) (h : tree.walk a segments = .ok b) :
    (tree.occupant? b).isSome = true := by
  induction segments using List.reverseRecOn generalizing b with
  | nil =>
    obtain rfl := Except.ok.inj h
    exact ha
  | append_singleton segments s ih =>
    rw [walk_concat, Except.bind_eq_ok_iff] at h
    obtain ⟨m, -, hs⟩ := h
    exact (step_eq_ok_iff_descend.1 hs).2.1

theorem isDirectory_of_walk (h : tree.walk a segments = .ok b) (hb : tree.occupant? b = some none)
    (hfront : front <+: segments) : tree.occupant? (destination a front) = some none := by
  obtain ⟨rest, rfl⟩ := hfront
  rw [walk_append, Except.bind_eq_ok_iff] at h
  obtain ⟨m, hm, hrest⟩ := h
  rw [← destination_of_walk hm]
  cases rest with
  | nil =>
    obtain rfl := Except.ok.inj hrest
    exact hb
  | cons s rest =>
    rw [walk_cons, Except.bind_eq_ok_iff] at hrest
    obtain ⟨_, hs, -⟩ := hrest
    exact (step_eq_ok_iff.1 hs).1

variable (tree a segments) in
def IsBlocked : Prop :=
  ∃ front, front <+: segments ∧ (tree.fileAt (destination a front)).isSome = true

theorem IsBlocked.mono (h : IsBlocked tree a segments) (hmore : segments <+: more) :
    IsBlocked tree a more := by
  obtain ⟨front, hfront, hfile⟩ := h
  exact ⟨front, hfront.trans hmore, hfile⟩

theorem isSome_fileAt (hsome : (tree.occupant? l).isSome = true)
    (hdir : tree.occupant? l ≠ some none) : (tree.fileAt l).isSome = true := by
  obtain ⟨content?, hl⟩ := Option.isSome_iff_exists.1 hsome
  cases content? with
  | none => exact absurd hl hdir
  | some content =>
    rw [occupant?_eq_file_iff.1 hl]
    rfl

theorem isSome_fileAt_iff :
    (tree.fileAt l).isSome = true ↔ ∃ content, tree.occupant? l = some (some content) := by
  simp only [Option.isSome_iff_exists, occupant?_eq_file_iff]

theorem IsBlocked.occupant?_ne (h : IsBlocked tree a segments)
    (hw : tree.walk a segments = .ok b) : tree.occupant? b ≠ some none := by
  intro hb
  obtain ⟨front, hfront, hfile⟩ := h
  obtain ⟨content, hcontent⟩ := isSome_fileAt_iff.1 hfile
  rw [isDirectory_of_walk hw hb hfront] at hcontent
  cases hcontent

theorem step_eq_error (h : tree.step a s = .error fault) : fault = .absent ∨
    fault = .notDirectory ∧ (tree.fileAt a).isSome = true := by
  rcases hf : tree.root.find? a with _ | ⟨content⟩ | ⟨children⟩
  · left
    simpa [step, hf] using h.symm
  · right
    rw [fileAt_eq_some_iff.2 hf]
    exact ⟨by simpa [step, hf] using h.symm, rfl⟩
  · left
    rw [step_of_directory hf] at h
    split_ifs at h
    exact (Except.error.inj h).symm

theorem walk_eq_error (h : tree.walk a segments = .error fault) : fault = .absent ∨
    fault = .notDirectory ∧ IsBlocked tree a segments := by
  induction segments using List.reverseRecOn with
  | nil => cases h
  | append_singleton segments s ih =>
    rw [walk_concat, Except.bind_eq_error_iff] at h
    rcases h with h | ⟨m, hm, hs⟩
    · refine (ih h).imp_right fun ⟨hfault, hblocked⟩ ↦ ⟨hfault, ?_⟩
      exact hblocked.mono (List.prefix_append _ _)
    · refine (step_eq_error hs).imp_right fun ⟨hfault, hfile⟩ ↦ ⟨hfault, segments, ?_, ?_⟩
      · exact List.prefix_append _ _
      · rwa [← destination_of_walk hm]

theorem walk_of_dropIdle {l : List String} (h : tree.walk a (Path.dropIdle l).reverse = .ok b)
    (hb : tree.occupant? b = some none) : tree.walk a l.reverse = .ok b := by
  fun_induction Path.dropIdle l with
  | case1 s t rest hs ih =>
    rw [List.reverse_cons (a := s), walk_concat, ih h, Except.ok_bind]
    exact step_eq_ok_iff.2 ⟨hb, .inl ⟨hs, rfl⟩⟩
  | case2 => exact h
  | case3 => exact h

theorem isDirectory_of_child (h : (tree.occupant? (l ++ [s])).isSome = true) :
    tree.occupant? l = some none := by
  rw [occupant?, Option.isSome_map] at h
  obtain ⟨found, hfound⟩ := Option.isSome_iff_exists.1 h
  exact occupant?_eq_directory_iff.2
    (Node.exists_directory_of_find?_append hfound (List.cons_ne_nil s []))

theorem step_child (hs : isName s = true) (h : (tree.occupant? (l ++ [s])).isSome = true) :
    tree.step l s = .ok (l ++ [s]) :=
  step_eq_ok_iff.2 ⟨isDirectory_of_child h, .inr (.inr ⟨hs, h, rfl⟩)⟩

section NotUp

variable (hup : ".." ∉ segments)

include hup

theorem length_le_destination : a.length ≤ (destination a segments).length := by
  induction segments generalizing a with
  | nil => exact Nat.le_refl _
  | cons s segments ih =>
    obtain ⟨hs, hup⟩ := not_or.1 (mt List.mem_cons.2 hup)
    refine Nat.le_trans ?_ (ih hup)
    rw [descend, if_neg (Ne.symm hs)]
    split
    · exact Nat.le_refl _
    · simp

/-- Without steps up, what stands where the segments lead is reached, unless it is a file with idle
segments behind it. -/
theorem walk_of_isDirectory (h : tree.occupant? (destination a segments) = some none) :
    tree.walk a segments = .ok (destination a segments) := by
  induction segments using List.reverseRecOn with
  | nil => rfl
  | append_singleton segments s ih =>
    simp only [List.mem_append, List.mem_singleton, not_or] at hup
    by_cases hidle : s = "" ∨ s = "."
    · rw [destination_concat, descend_idle hidle] at h ⊢
      rw [walk_concat, ih hup.1 h, Except.ok_bind]
      exact step_eq_ok_iff.2 ⟨h, .inl ⟨hidle, rfl⟩⟩
    · obtain ⟨hempty, hdot⟩ := not_or.1 hidle
      have hname := isName_iff.2 ⟨hempty, hdot, Ne.symm hup.2⟩
      rw [destination_concat, descend_name hname] at h ⊢
      have hsome : (tree.occupant? (destination a segments ++ [s])).isSome = true := by
        rw [h]
        rfl
      rw [walk_concat, ih hup.1 (isDirectory_of_child hsome), Except.ok_bind,
        step_child hname hsome]

theorem isBlocked_iff_exists_walk : IsBlocked tree a segments ↔
    ∃ front l, front <+: segments ∧ tree.walk a front = .ok l ∧ (tree.fileAt l).isSome = true := by
  constructor
  · intro h
    obtain ⟨front, hfront, hfile⟩ := h
    induction front using List.reverseRecOn with
    | nil => exact ⟨[], a, hfront, rfl, hfile⟩
    | append_singleton front s ih =>
      have hbefore := (List.prefix_append front [s]).trans hfront
      have hfrontUp : ".." ∉ front := fun hmem ↦ hup (hbefore.subset hmem)
      have hs : s ≠ ".." := by
        rintro rfl
        exact hup (hfront.subset (by simp))
      by_cases hidle : s = "" ∨ s = "."
      · rw [destination_concat, descend_idle hidle] at hfile
        exact ih hbefore hfile
      · obtain ⟨hempty, hdot⟩ := not_or.1 hidle
        have hname := isName_iff.2 ⟨hempty, hdot, hs⟩
        rw [destination_concat, descend_name hname] at hfile
        obtain ⟨content, hcontent⟩ := isSome_fileAt_iff.1 hfile
        have hsome : (tree.occupant? (destination a front ++ [s])).isSome = true := by
          rw [hcontent]
          rfl
        have hw := walk_of_isDirectory hfrontUp (isDirectory_of_child hsome)
        exact ⟨front ++ [s], _, hfront, by rw [walk_concat, hw, Except.ok_bind,
          step_child hname hsome], hfile⟩
  · intro h
    obtain ⟨front, l, hfront, hw, hfile⟩ := h
    exact ⟨front, hfront, by rwa [← destination_of_walk hw]⟩

end NotUp

end PairedSource.FileTree
