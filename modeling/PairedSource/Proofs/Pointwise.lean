import Mathlib.Data.List.Forall2

namespace List

variable {α β γ : Type} {R : α → β → Prop} {S : β → γ → Prop} {as : List α} {bs : List β}
  {cs : List γ} {a : α} {b : β}

theorem Forall₂.exists_of_mem_left (h : Forall₂ R as bs) (ha : a ∈ as) : ∃ b ∈ bs, R a b := by
  induction h with
  | nil => cases ha
  | @cons a' b' as bs hR _ ih =>
    rcases List.mem_cons.1 ha with rfl | ha
    · exact ⟨b', List.mem_cons_self, hR⟩
    · obtain ⟨b, hb, hR⟩ := ih ha
      exact ⟨b, List.mem_cons_of_mem b' hb, hR⟩

theorem Forall₂.exists_of_mem_right (h : Forall₂ R as bs) (hb : b ∈ bs) : ∃ a ∈ as, R a b :=
  h.flip.exists_of_mem_left hb

theorem Forall₂.exists_find? {p : α → Bool} {q : β → Bool} (hpq : ∀ a b, R a b → p a = q b)
    (h : Forall₂ R as bs) (hb : bs.find? q = some b) : ∃ a, as.find? p = some a ∧ R a b := by
  induction h with
  | nil => cases hb
  | @cons a' b' as bs hR _ ih =>
    rw [List.find?_cons] at hb ⊢
    rw [hpq a' b' hR]
    cases hq : q b' with
    | true =>
      rw [hq] at hb
      obtain rfl := Option.some.inj hb
      exact ⟨a', rfl, hR⟩
    | false =>
      rw [hq] at hb
      exact ih hb

theorem Forall₂.map_eq_map {f : α → γ} {g : β → γ} (hfg : ∀ a b, R a b → f a = g b)
    (h : Forall₂ R as bs) : as.map f = bs.map g := by
  rw [← forall₂_eq_eq_eq, forall₂_map_left_iff, forall₂_map_right_iff]
  exact h.imp hfg

theorem Forall₂.perm_flatMap {f : α → List γ} {g : β → List γ}
    (h : Forall₂ (fun a b ↦ (f a).Perm (g b)) as bs) : (as.flatMap f).Perm (bs.flatMap g) := by
  induction h with
  | nil => exact .refl _
  | cons hab _ ih => exact hab.append ih

theorem Forall₂.zip_right (h : Forall₂ R as bs) (cs : List γ) :
    Forall₂ (fun p q ↦ R p.1 q.1 ∧ p.2 = q.2) (as.zip cs) (bs.zip cs) := by
  induction h generalizing cs with
  | nil => exact .nil
  | cons hab _ ih =>
    cases cs with
    | nil => exact .nil
    | cons c cs => exact .cons ⟨hab, rfl⟩ (ih cs)

theorem exists_forall₂_between (h : Forall₂ (fun a c ↦ ∃ b, R a b ∧ S b c) as cs) :
    ∃ bs, Forall₂ R as bs ∧ Forall₂ S bs cs := by
  induction h with
  | nil => exact ⟨[], .nil, .nil⟩
  | cons hac _ ih =>
    obtain ⟨b, hR, hS⟩ := hac
    obtain ⟨bs, hRs, hSs⟩ := ih
    exact ⟨b :: bs, .cons hR hRs, .cons hS hSs⟩

theorem Forall₂.exists_eq_map [Nonempty β] (hunique : ∀ a b b', R a b → R a b' → b = b')
    (h : Forall₂ R as bs) : ∃ f : α → β, bs = as.map f := by
  have hchoice : ∀ a, ∃ b, ∀ b', R a b' → b = b' := by
    intro a
    by_cases hexists : ∃ b, R a b
    · obtain ⟨b, hb⟩ := hexists
      exact ⟨b, fun b' ↦ hunique a b b' hb⟩
    · exact ⟨Classical.arbitrary β, fun b' hb' ↦ absurd ⟨b', hb'⟩ hexists⟩
  choose f hf using hchoice
  refine ⟨f, Eq.symm ?_⟩
  rw [← forall₂_eq_eq_eq, forall₂_map_left_iff]
  exact h.imp fun a b ↦ hf a b

end List
