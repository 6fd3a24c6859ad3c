import PairedSource.Text.Split

namespace PairedSource.Text

variable {α : Type} {isSep : α → Bool} {l before after : List α}

theorem pieces_eq_singleton {l : List α} (h : ∀ a ∈ l, isSep a = false) : pieces isSep l = [l] := by
  induction l with
  | nil => rfl
  | cons a l ih =>
    have ha := h a (by simp)
    have hl := ih fun b hb ↦ h b (by simp [hb])
    simp [pieces, ha, hl]

theorem pieces_append_cons {a : α} (ha : isSep a = true) (l r : List α) :
    pieces isSep (l ++ a :: r) = pieces isSep l ++ pieces isSep r := by
  induction l with
  | nil => simp [pieces, ha]
  | cons b l ih =>
    by_cases hb : isSep b = true
    · simp [pieces, hb, ih]
    · obtain ⟨p, ps, hp⟩ := List.exists_cons_of_ne_nil (pieces_ne_nil isSep l)
      simp [pieces, hb, ih, hp]

theorem not_sep_of_mem_pieces {l p : List α} (hp : p ∈ pieces isSep l) :
    ∀ a ∈ p, isSep a = false ∧ a ∈ l := by
  induction l generalizing p with
  | nil => simp_all [pieces]
  | cons b l ih =>
    by_cases hb : isSep b = true
    · simp only [pieces, hb, if_true, List.mem_cons] at hp
      rcases hp with rfl | hp
      · simp
      · exact fun a ha ↦ ⟨(ih hp a ha).1, .tail _ (ih hp a ha).2⟩
    · obtain ⟨q, qs, hq⟩ := List.exists_cons_of_ne_nil (pieces_ne_nil isSep l)
      have hsplit : pieces isSep (b :: l) = (b :: q) :: qs := by simp [pieces, hb, hq]
      rw [hsplit, List.mem_cons] at hp
      intro a ha
      rcases hp with rfl | hp
      · rcases List.mem_cons.1 ha with rfl | ha
        · exact ⟨Bool.eq_false_iff.2 hb, .head _⟩
        · have h := ih (by rw [hq]; exact .head _) a ha
          exact ⟨h.1, .tail _ h.2⟩
      · have h := ih (by rw [hq]; exact .tail _ hp) a ha
        exact ⟨h.1, .tail _ h.2⟩

theorem flatten_pieces (l : List α) : (pieces isSep l).flatten = l.filter (!isSep ·) := by
  induction l with
  | nil => rfl
  | cons a l ih =>
    by_cases ha : isSep a = true
    · simp [pieces, ha, ih]
    · obtain ⟨p, ps, hp⟩ := List.exists_cons_of_ne_nil (pieces_ne_nil isSep l)
      rw [hp] at ih
      simp [pieces, ha, hp, ← ih]

def solidPieces (isSep : α → Bool) (l : List α) : List (List α) :=
  (pieces isSep l).filter (!·.isEmpty)

theorem solidPieces_append_left (h : ∀ a ∈ before, isSep a = true) :
    solidPieces isSep (before ++ l) = solidPieces isSep l := by
  induction before with
  | nil => rfl
  | cons a before ih =>
    have ha := h a List.mem_cons_self
    rw [← ih fun b hb ↦ h b (List.mem_cons_of_mem a hb)]
    simp [solidPieces, pieces, ha]

theorem solidPieces_append_right (h : ∀ a ∈ after, isSep a = true) :
    solidPieces isSep (l ++ after) = solidPieces isSep l := by
  cases after with
  | nil => rw [List.append_nil]
  | cons a after =>
    have hnone : solidPieces isSep (after ++ []) = solidPieces isSep [] :=
      solidPieces_append_left fun b hb ↦ h b (List.mem_cons_of_mem a hb)
    rw [List.append_nil] at hnone
    simp only [solidPieces] at hnone ⊢
    rw [pieces_append_cons (h a List.mem_cons_self), List.filter_append, hnone]
    simp [pieces]

variable {sep : Char}

theorem split_append (s t : String) :
    split sep (s ++ String.singleton sep ++ t) = split sep s ++ split sep t := by
  simp [split, pieces_append_cons]

theorem split_eq_singleton {s : String} (h : sep ∉ s.toList) : split sep s = [s] := by
  have hs : ∀ c ∈ s.toList, (c == sep) = false := fun c hc ↦
    beq_false_of_ne fun he ↦ h (he ▸ hc)
  simp [split, pieces_eq_singleton hs]

theorem split_ne_nil (s : String) : split sep s ≠ [] := by
  simp [split, pieces_ne_nil]

theorem mem_toList_of_mem_split {s t : String} (h : t ∈ split sep s) {c : Char}
    (hc : c ∈ t.toList) : c ≠ sep ∧ c ∈ s.toList := by
  obtain ⟨p, hp, rfl⟩ := List.mem_map.1 h
  have hpc := not_sep_of_mem_pieces hp c (by simpa using hc)
  exact ⟨by simpa using hpc.1, hpc.2⟩

theorem split_intercalate {l : List String} (hl : l ≠ []) (h : ∀ s ∈ l, sep ∉ s.toList) :
    split sep ((String.singleton sep).intercalate l) = l := by
  induction l with
  | nil => exact absurd rfl hl
  | cons s l ih =>
    have hs := split_eq_singleton (h s (by simp))
    by_cases hne : l = []
    · simpa [hne] using hs
    · rw [String.intercalate_cons_of_ne_nil hne, split_append, hs,
        ih hne fun t ht ↦ h t (by simp [ht])]
      rfl

theorem intercalate_split (s : String) : (String.singleton sep).intercalate (split sep s) = s := by
  rw [← String.toList_inj, String.toList_intercalate, split, List.map_map]
  have hid : String.toList ∘ String.ofList = id := by funext l; simp
  rw [hid, List.map_id, String.toList_singleton, intercalate_pieces]

end PairedSource.Text
