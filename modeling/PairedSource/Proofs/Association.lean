import Mathlib.Data.List.Nodup
import PairedSource.Association

namespace PairedSource.Association

variable {α β : Type} [BEq α] [LawfulBEq α] {key : α} {value : β} {entry : α × β}
  {l : List (α × β)}

theorem mem_of_lookup_eq_some (h : l.lookup key = some value) : (key, value) ∈ l := by
  obtain ⟨before, after, rfl, -⟩ := List.lookup_eq_some_iff.1 h
  simp

theorem isSome_lookup_iff : (l.lookup key).isSome = true ↔ key ∈ l.map Prod.fst := by
  simp [List.lookup_isSome_iff]

theorem lookup_eq_none_iff_notMem : l.lookup key = none ↔ key ∉ l.map Prod.fst := by
  rw [← isSome_lookup_iff, Option.not_isSome_iff_eq_none]

theorem mem_alter {f : Option β → β} (h : entry ∈ alter key f l) :
    entry ∈ l ∨ ∃ present, entry = (key, f present) := by
  induction l with
  | nil => exact .inr ⟨none, List.mem_singleton.1 h⟩
  | cons first rest ih =>
    obtain ⟨other, value⟩ := first
    rw [alter] at h
    split at h
    · rename_i hkey
      rcases List.mem_cons.1 h with rfl | h
      · exact .inr ⟨some value, by rw [eq_of_beq hkey]⟩
      · exact .inl (List.mem_cons_of_mem _ h)
    · rcases List.mem_cons.1 h with rfl | h
      · exact .inl List.mem_cons_self
      · exact (ih h).imp_left (List.mem_cons_of_mem _)

theorem nodup_keys_alter (f : Option β → β) (h : (l.map Prod.fst).Nodup) :
    ((alter key f l).map Prod.fst).Nodup := by
  rw [keys_alter]
  split
  · exact h
  · rename_i hkey
    rw [List.nodup_append_comm]
    exact List.nodup_cons.2 ⟨hkey, h⟩

omit [LawfulBEq α] in
theorem erase_sublist (key : α) (l : List (α × β)) : (erase key l).Sublist l := by
  induction l with
  | nil => exact .slnil
  | cons entry rest ih =>
    obtain ⟨other, value⟩ := entry
    rw [erase]
    split
    · exact List.sublist_cons_self _ _
    · exact ih.cons_cons _

omit [LawfulBEq α] in
theorem nodup_keys_erase (h : (l.map Prod.fst).Nodup) : ((erase key l).map Prod.fst).Nodup :=
  h.sublist ((erase_sublist key l).map Prod.fst)

theorem lookup_eq_some_of_mem (hnodup : (l.map Prod.fst).Nodup) (h : (key, value) ∈ l) :
    l.lookup key = some value := by
  obtain ⟨before, after, rfl⟩ := List.append_of_mem h
  refine List.lookup_eq_some_iff.2 ⟨before, after, rfl, fun p hp ↦ ?_⟩
  rw [List.map_append, List.map_cons] at hnodup
  have hne := (List.nodup_append.1 hnodup).2.2 p.1 (List.mem_map_of_mem hp) key
    List.mem_cons_self
  simpa using Ne.symm hne

theorem eq_of_mem {other : β} (hnodup : (l.map Prod.fst).Nodup) (h : (key, value) ∈ l)
    (h' : (key, other) ∈ l) : value = other := by
  have hlookup := lookup_eq_some_of_mem hnodup h
  rw [lookup_eq_some_of_mem hnodup h'] at hlookup
  exact (Option.some.inj hlookup).symm

theorem nodup_keys_concat (hnodup : (l.map Prod.fst).Nodup) (hfree : l.lookup key = none) :
    ((l ++ [(key, value)]).map Prod.fst).Nodup := by
  rw [List.map_append, List.nodup_append_comm]
  exact List.nodup_cons.2 ⟨lookup_eq_none_iff_notMem.1 hfree, hnodup⟩

theorem alter_alter (f g : Option β → β) (l : List (α × β)) :
    alter key f (alter key g l) = alter key (fun present ↦ f (some (g present))) l := by
  induction l with
  | nil => simp [alter]
  | cons first rest ih =>
    obtain ⟨other, present⟩ := first
    by_cases h : other = key
    · simp [alter, h]
    · simp [alter, h, ih]

/-- A key that is there keeps its place, whatever else is changed or comes in. -/
theorem alter_comm {other : α} (hne : other ≠ key) (h : key ∈ l.map Prod.fst) (f g : Option β → β) :
    alter other g (alter key f l) = alter key f (alter other g l) := by
  induction l with
  | nil => cases h
  | cons first rest ih =>
    obtain ⟨k, present⟩ := first
    by_cases hk : k = key
    · subst hk
      simp [alter, Ne.symm hne]
    · have hrest : key ∈ rest.map Prod.fst := by simpa [Ne.symm hk] using h
      by_cases hother : k = other
      · simp [alter, hother, hne]
      · simp [alter, hk, hother, ih hrest]

/-- Enters some pairs, one after the other, where `f` joins what is there with what comes. -/
def enter {γ : Type} (f : Option β → γ → β) (l : List (α × β)) (entries : List (α × γ)) :
    List (α × β) :=
  entries.foldl (fun l (key, c) ↦ alter key (f · c) l) l

section Enter

variable {γ : Type} {f : Option β → γ → β} {entries : List (α × γ)}

omit [LawfulBEq α] in
theorem enter_cons (c : γ) :
    enter f l ((key, c) :: entries) = enter f (alter key (f · c) l) entries :=
  rfl

theorem mem_keys_enter {entry : α} : entry ∈ (enter f l entries).map Prod.fst ↔
    entry ∈ l.map Prod.fst ∨ entry ∈ entries.map Prod.fst := by
  induction entries generalizing l with
  | nil => simp [enter]
  | cons first rest ih =>
    obtain ⟨other, c⟩ := first
    have hkeys : entry ∈ (alter other (f · c) l).map Prod.fst ↔
        entry ∈ l.map Prod.fst ∨ entry = other := by
      rw [keys_alter]
      split
      · rename_i hother
        exact ⟨.inl, fun h ↦ h.elim id fun heq ↦ heq ▸ hother⟩
      · rw [List.mem_append, List.mem_singleton]
    rw [enter_cons, ih, hkeys, List.map_cons, List.mem_cons, or_assoc]

theorem enter_alter_of_notMem (hmem : key ∈ l.map Prod.fst) (h : key ∉ entries.map Prod.fst)
    (g : Option β → β) : enter f (alter key g l) entries = alter key g (enter f l entries) := by
  induction entries generalizing l with
  | nil => rfl
  | cons first rest ih =>
    obtain ⟨other, c⟩ := first
    rw [List.map_cons, List.mem_cons, not_or] at h
    have hkept : key ∈ (alter other (f · c) l).map Prod.fst := by
      rw [keys_alter]
      split
      · exact hmem
      · exact List.mem_append_left _ hmem
    rw [enter_cons, enter_cons, alter_comm (Ne.symm h.1) hmem, ih hkept h.2]

/-- To change one of the pairs and then enter them is to enter them and then change the outcome. -/
theorem enter_alter {g : Option γ → γ} {h : Option β → β}
    (hnodup : (entries.map Prod.fst).Nodup) (hnone : ∀ b, f b (g none) = h b)
    (hsome : ∀ b c, (key, c) ∈ entries → f b (g (some c)) = h (some (f b c))) :
    enter f l (alter key g entries) = alter key h (enter f l entries) := by
  induction entries generalizing l with
  | nil =>
    rw [alter, enter_cons]
    simp only [hnone]
    rfl
  | cons first rest ih =>
    obtain ⟨other, c⟩ := first
    obtain ⟨hfresh, hrest⟩ := List.nodup_cons.1 hnodup
    by_cases hkey : other = key
    · subst hkey
      have hmem : other ∈ (alter other (f · c) l).map Prod.fst := by
        rw [← isSome_lookup_iff, lookup_alter_self]
        rfl
      have hchange : (fun b ↦ f b (g (some c))) = fun b ↦ h (some (f b c)) :=
        funext fun b ↦ hsome b c List.mem_cons_self
      rw [alter, if_pos (beq_self_eq_true other), enter_cons, enter_cons, hchange, ← alter_alter,
        enter_alter_of_notMem hmem hfresh]
    · rw [alter, if_neg (by simpa using hkey), enter_cons, enter_cons]
      exact ih hrest fun b c hc ↦ hsome b c (List.mem_cons_of_mem _ hc)

end Enter

end PairedSource.Association
