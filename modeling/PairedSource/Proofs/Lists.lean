import Mathlib.Data.List.Nodup
import Mathlib.Data.List.TakeWhile

namespace List

variable {α β : Type} {p q : α → Bool} {l l' seen : List α} {a : α}

section Search

theorem findSome?_eq_map_find? {f : α → β} (l : List α) :
    (l.findSome? fun a ↦ if p a then some (f a) else none) = (l.find? p).map f := by
  rw [find?_eq_findSome?_guard, map_findSome?]
  congr 1
  funext a
  cases h : p a <;> simp [Option.guard, h]

theorem findSomeRev?_cons (f : α → Option β) (a : α) (l : List α) :
    (a :: l).findSomeRev? f = (l.findSomeRev? f <|> f a) := by
  rw [findSomeRev?]
  cases l.findSomeRev? f <;> rfl

theorem takeWhile_subset_takeWhile (h : ∀ a, p a = true → q a = true) (l : List α) :
    l.takeWhile p ⊆ l.takeWhile q := by
  have hboth : l.takeWhile p = (l.takeWhile q).takeWhile p := by
    rw [takeWhile_takeWhile]
    congr 1
    funext a
    rw [Bool.eq_iff_iff, decide_eq_true_eq]
    exact ⟨fun ha ↦ ⟨ha, h a ha⟩, And.left⟩
  rw [hboth]
  exact (takeWhile_sublist p).subset

theorem dropWhile_append_of_head? (hl : ∀ a ∈ l, p a = true) (hl' : ∀ a ∈ l'.head?, p a = false) :
    (l ++ l').dropWhile p = l' := by
  rw [dropWhile_append_of_pos hl]
  cases l' with
  | nil => rfl
  | cons a l' => rw [dropWhile_cons_of_neg (by simp [hl' a rfl])]

variable [BEq α] [LawfulBEq α]

theorem takeWhile_bne_of_notMem (h : a ∉ l) :
    l.takeWhile (· != a) = l ∧ l.dropWhile (· != a) = [] := by
  have hall : ∀ b ∈ l, (b != a) = true := fun b hb ↦ bne_iff_ne.2 fun heq ↦ h (heq ▸ hb)
  exact ⟨takeWhile_eq_self_iff.2 hall, dropWhile_eq_nil_iff.2 hall⟩

theorem takeWhile_bne_append_cons (h : a ∉ l) (l' : List α) :
    (l ++ a :: l').takeWhile (· != a) = l ∧ (l ++ a :: l').dropWhile (· != a) = a :: l' := by
  have hall : ∀ b ∈ l, (b != a) = true := fun b hb ↦ bne_iff_ne.2 fun heq ↦ h (heq ▸ hb)
  rw [takeWhile_append_of_pos hall, dropWhile_append_of_pos hall]
  simp

end Search

section Repeats

variable [BEq α]

theorem head?_eraseDups (l : List α) : l.eraseDups.head? = l.head? := by
  cases l with
  | nil => rfl
  | cons a l => rw [eraseDups_cons, head?_cons, head?_cons]

variable [LawfulBEq α]

theorem nodup_eraseDups (l : List α) : l.eraseDups.Nodup := by
  match l with
  | [] => simp
  | a :: l =>
    have hlen : (l.filter fun b ↦ !b == a).length < l.length + 1 :=
      Nat.lt_succ_of_le (length_filter_le _ _)
    rw [eraseDups_cons, nodup_cons]
    exact ⟨by simp, nodup_eraseDups _⟩
termination_by l.length

theorem Perm.eraseDups (h : l.Perm l') : l.eraseDups.Perm l'.eraseDups := by
  rw [perm_ext_iff_of_nodup (nodup_eraseDups l) (nodup_eraseDups l')]
  intro a
  rw [mem_eraseDups, mem_eraseDups, h.mem_iff]

theorem eraseDups_of_nodup (h : l.Nodup) : l.eraseDups = l := by
  induction l with
  | nil => rfl
  | cons a l ih =>
    obtain ⟨ha, hl⟩ := nodup_cons.1 h
    have hfilter : l.filter (!· == a) = l := by
      rw [filter_eq_self]
      intro b hb
      have hne : b ≠ a := fun heq ↦ ha (heq ▸ hb)
      simpa using hne
    rw [eraseDups_cons, hfilter, ih hl]

/-- What is put behind a list is first in it only where nothing else is. -/
theorem eraseDups_append_singleton_iff :
    (l ++ [a]).eraseDups = (a :: l).eraseDups ↔ ∀ b ∈ l.head?, b = a := by
  constructor
  · intro h b hb
    have hhead := congrArg head? h
    rw [head?_eraseDups, head?_eraseDups, head?_append, Option.mem_def.1 hb, Option.some_or,
      head?_cons] at hhead
    exact Option.some.inj hhead
  · intro h
    cases l with
    | nil => rfl
    | cons b l =>
      obtain rfl : b = a := h b rfl
      simp [eraseDups_cons]

/-- The elements of a list that are not among the given ones, each at its first place. -/
def newcomers (seen l : List α) : List α :=
  (l.removeAll seen).eraseDups

theorem mem_removeAll : a ∈ l.removeAll seen ↔ a ∈ l ∧ a ∉ seen := by
  simp [removeAll]

theorem mem_newcomers : a ∈ seen.newcomers l ↔ a ∈ l ∧ a ∉ seen := by
  rw [newcomers, mem_eraseDups, mem_removeAll]

theorem newcomers_of_subset (h : l ⊆ seen) : seen.newcomers l = [] := by
  rw [eq_nil_iff_forall_not_mem]
  intro a ha
  obtain ⟨hl, hs⟩ := mem_newcomers.1 ha
  exact hs (h hl)

theorem newcomers_cons (h : a ∉ seen) :
    seen.newcomers (a :: l) = a :: (a :: seen).newcomers l := by
  have hcons : (a :: l).removeAll seen = a :: l.removeAll seen := by
    simp [cons_removeAll, h]
  rw [newcomers, newcomers, hcons, eraseDups_cons]
  congr 2
  simp only [removeAll, filter_filter]
  refine filter_congr fun b _ ↦ ?_
  rw [Bool.eq_iff_iff]
  simp

/-- What a second list adds is what is new in view of what the first one added. -/
theorem newcomers_append :
    seen.newcomers (l ++ l') =
      seen.newcomers l ++ ((seen.newcomers l).reverse ++ seen).newcomers l' := by
  have happ : (l ++ l').removeAll seen = l.removeAll seen ++ l'.removeAll seen := by
    simp [removeAll]
  rw [newcomers, happ, eraseDups_append, newcomers, newcomers]
  congr 2
  simp only [removeAll, filter_filter]
  refine filter_congr fun b _ ↦ ?_
  rw [Bool.eq_iff_iff]
  simp

end Repeats

section Sorting

theorem pairwise_zipIdx (l : List α) : l.zipIdx.Pairwise (fun a b ↦ a.2 < b.2) := by
  rw [← pairwise_map, zipIdx_map_snd]
  exact pairwise_lt_range'

theorem pairwise_mergeSort_fst (l : List (Nat × α)) :
    (l.mergeSort fun a b ↦ a.1 ≤ b.1).Pairwise fun a b ↦ a.1 ≤ b.1 := by
  let le := fun a b : Nat × α ↦ decide (a.1 ≤ b.1)
  have htrans : ∀ a b c, le a b = true → le b c = true → le a c = true := by
    simp only [le, decide_eq_true_eq]
    omega
  have htotal : ∀ a b, (le a b || le b a) = true := by
    simp only [le, Bool.or_eq_true, decide_eq_true_eq]
    omega
  exact (pairwise_mergeSort htrans htotal l).imp fun h ↦ by simpa [le] using h

theorem getElem?_map_snd_mergeSort {l : List (Nat × α)} {n index : Nat}
    (h : (l.map Prod.fst).Perm (range n)) (hmem : (index, a) ∈ l) :
    ((l.mergeSort fun a b ↦ a.1 ≤ b.1).map Prod.snd)[index]? = some a := by
  have hperm := mergeSort_perm l fun a b ↦ a.1 ≤ b.1
  have hsorted := pairwise_map.2 (pairwise_mergeSort_fst l)
  generalize (l.mergeSort fun a b ↦ a.1 ≤ b.1) = sorted at hperm hsorted
  have hkeys : sorted.map Prod.fst = range n :=
    ((hperm.map Prod.fst).trans h).eq_of_pairwise (fun _ _ _ _ hab hba ↦ Nat.le_antisymm hab hba)
      hsorted pairwise_le_range
  obtain ⟨position, hlt, hget⟩ := getElem_of_mem (hperm.symm.subset hmem)
  have hkey : (sorted.map Prod.fst)[position]? = some index := by simp [hlt, hget]
  obtain ⟨hin, hkey⟩ := getElem?_eq_some_iff.1 (hkeys ▸ hkey)
  obtain rfl : position = index := (getElem_range hin).symm.trans hkey
  simp [hlt, hget]

theorem pairwise_mergeSort_of_nodup {texts : List String} (h : texts.Nodup) :
    (texts.mergeSort (decide <| · ≤ ·)).Pairwise (· < ·) := by
  have htrans : ∀ s t u : String, decide (s ≤ t) = true → decide (t ≤ u) = true →
      decide (s ≤ u) = true := by
    intro s t u hst htu
    exact decide_eq_true (String.le_trans (of_decide_eq_true hst) (of_decide_eq_true htu))
  have htotal : ∀ s t : String, (decide (s ≤ t) || decide (t ≤ s)) = true := by
    intro s t
    simpa using String.le_total s t
  have hsorted := pairwise_mergeSort htrans htotal texts
  have hdistinct := (mergeSort_perm texts (decide <| · ≤ ·)).nodup_iff.2 h
  refine (hsorted.and hdistinct).imp fun {s t} h ↦ ?_
  obtain ⟨hle, hne⟩ := h
  by_contra hlt
  exact hne (String.le_antisymm (of_decide_eq_true hle) (String.not_lt.1 hlt))

end Sorting

end List
