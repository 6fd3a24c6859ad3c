namespace PairedSource.Text

/-- The first place where `needle` occurs in a list: what stands before it and what follows it. -/
def breakOn? {α : Type} [BEq α] (needle : List α) : List α → Option (List α × List α)
  | [] => if needle.isEmpty then some ([], []) else none
  | a :: l =>
    if needle.isPrefixOf (a :: l) then some ([], (a :: l).drop needle.length)
    else (breakOn? needle l).map fun (before, after) ↦ (a :: before, after)

def byteLength : List Char → Nat
  | [] => 0
  | c :: cs => c.utf8Size + byteLength cs

def find? (needle s : String) : Option Nat :=
  (breakOn? needle.toList s.toList).map fun (before, _) ↦ byteLength before

theorem append_of_breakOn? {α : Type} [BEq α] [LawfulBEq α] {needle l before after : List α}
    (h : breakOn? needle l = some (before, after)) : before ++ needle ++ after = l := by
  induction l generalizing before with
  | nil =>
    simp only [breakOn?, List.isEmpty_iff] at h
    split at h <;> simp_all
  | cons a l ih =>
    simp only [breakOn?] at h
    split at h
    · rename_i hp
      obtain ⟨rest, hr⟩ := List.isPrefixOf_iff_prefix.1 hp
      simp only [Option.some.injEq, Prod.mk.injEq] at h
      obtain ⟨rfl, rfl⟩ := h
      simp [← hr]
    · simp only [Option.map_eq_some_iff, Prod.mk.injEq, Prod.exists] at h
      obtain ⟨b, r, hb, rfl, rfl⟩ := h
      simp [← ih hb]

end PairedSource.Text
