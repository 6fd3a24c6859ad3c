import PairedSource.Proofs.FileTree.Agree

namespace PairedSource.FileTree

def detours : Nat → List String
  | 0 => []
  | n + 1 => "x" :: ".." :: detours n

theorem detours_succ_eq_append (n : Nat) : detours (n + 1) = detours n ++ ["x", ".."] := by
  induction n with
  | zero => rfl
  | succ n ih =>
    change "x" :: ".." :: detours (n + 1) = "x" :: ".." :: (detours n ++ ["x", ".."])
    rw [ih]

theorem utf8ByteSize_detours (n : Nat) :
    ("/".intercalate (detours (n + 1))).utf8ByteSize = 5 * n + 4 := by
  induction n with
  | zero => rfl
  | succ n ih =>
    have hne : detours (n + 1) ≠ [] := by simp [detours]
    rw [detours, String.intercalate_cons_cons, String.intercalate_cons_of_ne_nil hne]
    have hturn : "x".utf8ByteSize + "/".utf8ByteSize + ("..".utf8ByteSize + "/".utf8ByteSize) =
        5 := rfl
    simp only [String.utf8ByteSize_append, ih]
    omega

theorem utf8ByteSize_le_join_detours (n : Nat) {q : Path} (h : q.isAbsolute = false) :
    5 * n + 4 + q.text.utf8ByteSize ≤
      ((Path.mk ("/".intercalate (detours (n + 1)))).join q).text.utf8ByteSize := by
  have hjoin := Path.utf8ByteSize_add_le_join (p := ⟨"/".intercalate (detours (n + 1))⟩) h
  rwa [utf8ByteSize_detours] at hjoin

theorem mem_of_mem_detours {n : Nat} {s : String} (h : s ∈ detours n) : s = "x" ∨ s = ".." := by
  induction n with
  | zero => cases h
  | succ n ih =>
    simp only [detours, List.mem_cons] at h
    rcases h with h | h | h
    · exact .inl h
    · exact .inr h
    · exact ih h

theorem nul_notMem_detours (n : Nat) : '\x00' ∉ ("/".intercalate (detours n)).toList := by
  induction n with
  | zero => simp [detours]
  | succ n ih =>
    cases n with
    | zero => decide +kernel
    | succ n =>
      have htext : "/".intercalate (detours (n + 2)) =
          "x/../" ++ "/".intercalate (detours (n + 1)) := by
        rw [detours, String.intercalate_cons_cons,
          String.intercalate_cons_of_ne_nil (by simp [detours])]
        simp only [← String.append_assoc]
        rfl
      rw [htext, String.toList_append, List.mem_append]
      exact fun h ↦ h.elim (by decide) ih

theorem walk_detours_of_isDirectory {tree : FileTree} {a : Location}
    (ha : tree.occupant? a = some none) (hx : tree.occupant? (a ++ ["x"]) = some none) (n : Nat) :
    tree.walk a (detours n) = .ok a := by
  have hin : tree.step a "x" = .ok (a ++ ["x"]) := by
    refine step_eq_ok_iff.2 ⟨ha, .inr (.inr ⟨by decide, ?_, rfl⟩)⟩
    rw [hx]
    rfl
  have hout : tree.step (a ++ ["x"]) ".." = .ok a := by
    refine step_eq_ok_iff.2 ⟨hx, .inr (.inl ⟨rfl, ?_⟩)⟩
    rw [List.dropLast_concat]
  induction n with
  | zero => rfl
  | succ n ih =>
    rw [detours, walk_cons, hin, Except.ok_bind, walk_cons, hout, Except.ok_bind,
      ih]

def afterDetours (n : Nat) (name : String) : Path :=
  ⟨"/".intercalate (detours (n + 1) ++ [name])⟩

section AfterDetours

variable {name : String} (n : Nat)

theorem segments_afterDetours (hslash : '/' ∉ name.toList) :
    (afterDetours n name).segments = detours (n + 1) ++ [name] := by
  refine Path.segments_intercalate (by simp) fun s hs ↦ ?_
  rcases List.mem_append.1 hs with hs | hs
  · rcases mem_of_mem_detours hs with rfl | rfl <;> decide
  · rwa [List.mem_singleton.1 hs]

theorem text_afterDetours :
    (afterDetours n name).text = "/".intercalate (detours (n + 1)) ++ ("/" ++ name) := by
  have hne : detours (n + 1) ≠ [] := List.cons_ne_nil _ _
  rw [afterDetours, String.intercalate_append_of_ne_nil hne (by simp), String.intercalate_singleton,
    String.append_assoc]

theorem isAdmissible_afterDetours (hnul : '\x00' ∉ name.toList)
    (hsize : 5 * n + 5 + name.utf8ByteSize ≤ maxPathLength) :
    isAdmissible (afterDetours n name) = true := by
  have hslash : "/".utf8ByteSize = 1 := rfl
  rw [isAdmissible_iff, text_afterDetours]
  constructor
  · rw [String.utf8ByteSize_append, String.utf8ByteSize_append, utf8ByteSize_detours, hslash]
    omega
  · rw [String.toList_append, List.mem_append, String.toList_append, List.mem_append]
    exact fun h ↦ h.elim (nul_notMem_detours _) fun h ↦ h.elim (by decide) hnul

theorem parent?_afterDetours (hslash : '/' ∉ name.toList) (hname : name ≠ "") (hdot : name ≠ ".") :
    (afterDetours n name).parent? = some ⟨"/".intercalate (detours (n + 1))⟩ := by
  have hdrop : Path.dropIdle (detours (n + 1)).reverse = (detours (n + 1)).reverse := by
    rw [detours_succ_eq_append, List.reverse_append]
    rfl
  have hreversed : Path.ofReversed (detours (n + 1)).reverse =
      ⟨"/".intercalate (detours (n + 1))⟩ := by
    rw [detours_succ_eq_append, List.reverse_append, ← List.reverse_reverse (detours n ++ _),
      List.reverse_append]
    rfl
  rw [Path.parent?_eq (segments_afterDetours n hslash) hname hdot, hdrop, hreversed]

end AfterDetours

end PairedSource.FileTree
