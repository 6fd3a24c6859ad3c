import PairedSource.Proofs.Lists
import PairedSource.Text.Blank
import PairedSource.Text.LetterCase

namespace PairedSource.Text

variable {α : Type} {p q : α → Bool} {l : List α} {c : Char} {s : String}

theorem exists_eq_dropAround (p : α → Bool) (l : List α) :
    ∃ before after, l = before ++ dropAround p l ++ after ∧
      (∀ a ∈ before, p a = true) ∧ ∀ a ∈ after, p a = true := by
  refine ⟨l.takeWhile p, ((l.dropWhile p).reverse.takeWhile p).reverse, ?_, ?_, ?_⟩
  · rw [List.append_assoc, dropAround, ← List.reverse_append, List.takeWhile_append_dropWhile,
      List.reverse_reverse, List.takeWhile_append_dropWhile]
  · intro a ha
    exact List.mem_takeWhile_imp ha
  · intro a ha
    exact List.mem_takeWhile_imp (List.mem_reverse.1 ha)

theorem dropAround_eq_self (h : ∀ a ∈ l, p a = false) : dropAround p l = l := by
  have hdrop : ∀ l : List α, (∀ a ∈ l, p a = false) → l.dropWhile p = l := by
    intro l hl
    cases l with
    | nil => rfl
    | cons a l => rw [List.dropWhile_cons_of_neg (by simp [hl a])]
  rw [dropAround, hdrop l h, hdrop l.reverse (by simpa using h), List.reverse_reverse]

theorem dropAround_append {before body after : List α} (hbefore : ∀ a ∈ before, p a = true)
    (hafter : ∀ a ∈ after, p a = true) (hne : body ≠ []) (hhead : ∀ a ∈ body.head?, p a = false)
    (hlast : ∀ a ∈ body.getLast?, p a = false) : dropAround p (before ++ body ++ after) = body := by
  have hfront : (before ++ body ++ after).dropWhile p = body ++ after := by
    rw [List.append_assoc]
    refine List.dropWhile_append_of_head? hbefore fun a ha ↦ hhead a ?_
    obtain ⟨b, rest, rfl⟩ := List.exists_cons_of_ne_nil hne
    exact ha
  have hback : (after.reverse ++ body.reverse).dropWhile p = body.reverse := by
    refine List.dropWhile_append_of_head? (by simpa using hafter) fun a ha ↦ hlast a ?_
    rwa [List.head?_reverse] at ha
  rw [dropAround, hfront, List.reverse_append, hback, List.reverse_reverse]

theorem dropAround_map {f : α → α} (h : ∀ a, p (f a) = p a) (l : List α) :
    dropAround p (l.map f) = (dropAround p l).map f := by
  have hcomp : p ∘ f = p := funext h
  rw [dropAround, List.dropWhile_map, hcomp, ← List.map_reverse, List.dropWhile_map, hcomp,
    ← List.map_reverse, dropAround]

theorem any_dropAround (h : ∀ a, p a = true → q a = false) (l : List α) :
    (dropAround p l).any q = l.any q := by
  obtain ⟨before, after, hl, hbefore, hafter⟩ := exists_eq_dropAround p l
  have hnone : ∀ l : List α, (∀ a ∈ l, p a = true) → l.any q = false := by
    intro l hl
    rw [List.any_eq_false]
    intro a ha
    simp [h a (hl a ha)]
  have hany := congrArg (List.any · q) hl
  simp only [List.any_append, hnone before hbefore, hnone after hafter, Bool.false_or,
    Bool.or_false] at hany
  exact hany.symm

/-- The code points with the Unicode property White_Space. -/
def blanks : List Nat :=
  [0x20, 0x85, 0xa0, 0x1680, 0x2028, 0x2029, 0x202f, 0x205f, 0x3000] ++ List.range' 0x9 5 ++
    List.range' 0x2000 11

theorem toNat_mem_blanks (h : isBlank c = true) : c.toNat ∈ blanks := by
  have hrange : ∀ {low high : Char}, low ≤ c ∧ c ≤ high →
      low.toNat ≤ c.toNat ∧ c.toNat < high.toNat + 1 := by
    intro low high hc
    exact ⟨UInt32.le_iff_toNat_le.1 hc.1, Nat.lt_succ_of_le (UInt32.le_iff_toNat_le.1 hc.2)⟩
  simp only [isBlank, Bool.or_eq_true, Bool.and_eq_true, decide_eq_true_eq, beq_iff_eq] at h
  simp only [blanks, List.mem_append, List.mem_range'_1]
  rcases h with (((((((((h | rfl) | rfl) | rfl) | rfl) | h) | rfl) | rfl) | rfl) | rfl) | rfl
  · exact .inl (.inr (hrange h))
  · decide
  · decide
  · decide
  · decide
  · exact .inr (hrange h)
  all_goals decide

theorem of_isBlank (h : isBlank c = true) :
    c.isAlphanum = false ∧ isUppercase c = false ∧ isLowercase c = false := by
  have hall : ∀ n ∈ blanks, (Char.ofNat n).isAlphanum = false ∧
      isUppercase (Char.ofNat n) = false ∧ isLowercase (Char.ofNat n) = false := by decide +kernel
  have hc := hall c.toNat (toNat_mem_blanks h)
  rwa [Char.ofNat_toNat] at hc

theorem toList_trim (s : String) : (trim s).toList = dropAround isBlank s.toList :=
  String.toList_ofList

theorem trim_eq_self (h : ∀ c ∈ s.toList, c.isAlphanum = true) : trim s = s := by
  rw [← String.toList_inj, toList_trim]
  refine dropAround_eq_self fun c hc ↦ ?_
  rw [Bool.eq_false_iff]
  intro hblank
  exact absurd (h c hc) (by simp [(of_isBlank hblank).1])

end PairedSource.Text
