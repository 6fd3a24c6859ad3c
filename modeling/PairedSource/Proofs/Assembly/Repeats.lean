import PairedSource.Assembly
import PairedSource.Proofs.Association

namespace PairedSource.Assembly

/-- A name that was there before: who had it, and who takes it again. -/
structure Repeat where
  name : String
  first : String
  second : String

def firstRepeat? (taken : List (String × String)) : List (String × String) → Option Repeat
  | [] => none
  | (name, key) :: rest =>
    match taken.lookup name with
    | some first => some ⟨name, first, key⟩
    | none => firstRepeat? (taken ++ [(name, key)]) rest

variable {taken claims claims' : List (String × String)} {name key : String} {clash : Repeat}

variable (taken claims clash) in
/-- Up to the claim that takes a name again no name is there twice. -/
def IsFirstRepeat : Prop :=
  ∃ index, claims[index]? = some (clash.name, clash.second) ∧
    ((taken ++ claims.take index).map Prod.fst).Nodup ∧
    (clash.name, clash.first) ∈ taken ++ claims.take index

theorem firstRepeat?_eq_none_iff (hnodup : (taken.map Prod.fst).Nodup) :
    firstRepeat? taken claims = none ↔ ((taken ++ claims).map Prod.fst).Nodup := by
  induction claims generalizing taken with
  | nil => simpa [firstRepeat?] using hnodup
  | cons claim claims ih =>
    obtain ⟨name, key⟩ := claim
    cases hlookup : taken.lookup name with
    | none =>
      simp only [firstRepeat?, hlookup]
      rw [ih (Association.nodup_keys_concat hnodup hlookup), List.append_assoc,
        List.singleton_append]
    | some first =>
      simp only [firstRepeat?, hlookup, reduceCtorEq, false_iff]
      intro h
      have hmem := List.mem_map_of_mem (f := Prod.fst)
        (Association.mem_of_lookup_eq_some hlookup)
      rw [List.map_append, List.nodup_append] at h
      exact h.2.2 name hmem name (by simp) rfl

theorem isFirstRepeat_cons_iff_of_free (hfree : name ∉ taken.map Prod.fst) :
    IsFirstRepeat taken ((name, key) :: claims) clash ↔
      IsFirstRepeat (taken ++ [(name, key)]) claims clash := by
  constructor
  · intro h
    obtain ⟨index, hclaim, hnodup, hmem⟩ := h
    cases index with
    | zero =>
      obtain ⟨hname, -⟩ := Prod.mk.inj (Option.some.inj hclaim)
      rw [List.take_zero, List.append_nil, ← hname] at hmem
      exact absurd (List.mem_map_of_mem hmem) hfree
    | succ index =>
      rw [List.take_succ_cons, List.append_cons] at hnodup hmem
      exact ⟨index, hclaim, hnodup, hmem⟩
  · intro h
    obtain ⟨index, hclaim, hnodup, hmem⟩ := h
    rw [← List.append_cons, ← List.take_succ_cons] at hnodup hmem
    exact ⟨index + 1, hclaim, hnodup, hmem⟩

theorem isFirstRepeat_cons_iff_of_mem {first : String} (hnodup : (taken.map Prod.fst).Nodup)
    (hmem : (name, first) ∈ taken) :
    IsFirstRepeat taken ((name, key) :: claims) clash ↔ ⟨name, first, key⟩ = clash := by
  constructor
  · intro h
    obtain ⟨index, hclaim, hbefore, hclash⟩ := h
    cases index with
    | zero =>
      obtain ⟨hname, hsecond⟩ := Prod.mk.inj (Option.some.inj hclaim)
      rw [List.take_zero, List.append_nil, ← hname] at hclash
      rw [Association.eq_of_mem hnodup hmem hclash, hname, hsecond]
    | succ index =>
      rw [List.take_succ_cons, List.map_append, List.nodup_append] at hbefore
      exact absurd rfl (hbefore.2.2 name (List.mem_map_of_mem hmem) name (by simp))
  · rintro rfl
    exact ⟨0, rfl, by simpa using hnodup, by simpa using hmem⟩

theorem firstRepeat?_eq_some_iff (hnodup : (taken.map Prod.fst).Nodup) :
    firstRepeat? taken claims = some clash ↔ IsFirstRepeat taken claims clash := by
  induction claims generalizing taken with
  | nil => simp [firstRepeat?, IsFirstRepeat]
  | cons claim claims ih =>
    obtain ⟨name, key⟩ := claim
    cases hlookup : taken.lookup name with
    | none =>
      simp only [firstRepeat?, hlookup]
      rw [ih (Association.nodup_keys_concat hnodup hlookup),
        isFirstRepeat_cons_iff_of_free (Association.lookup_eq_none_iff_notMem.1 hlookup)]
    | some first =>
      simp only [firstRepeat?, hlookup, Option.some.injEq]
      rw [isFirstRepeat_cons_iff_of_mem hnodup (Association.mem_of_lookup_eq_some hlookup)]

theorem IsFirstRepeat.mem_taken (h : IsFirstRepeat taken claims clash)
    (hnodup : (claims.map Prod.fst).Nodup) : (clash.name, clash.first) ∈ taken := by
  obtain ⟨index, hclaim, -, hmem⟩ := h
  rcases List.mem_append.1 hmem with hmem | hmem
  · exact hmem
  · have hsublist := ((claims.take_sublist (index + 1)).map Prod.fst).nodup hnodup
    rw [List.take_add_one, hclaim, List.map_append, List.nodup_append] at hsublist
    exact absurd rfl (hsublist.2.2 clash.name (List.mem_map_of_mem hmem) clash.name (by simp))

/-- A clash in a first part hides those behind it; else the first part counts as taken. -/
theorem firstRepeat?_append (taken claims claims' : List (String × String)) :
    firstRepeat? taken (claims ++ claims') =
      (firstRepeat? taken claims).or (firstRepeat? (taken ++ claims) claims') := by
  induction claims generalizing taken with
  | nil => simp [firstRepeat?]
  | cons claim claims ih =>
    obtain ⟨name, key⟩ := claim
    simp only [List.cons_append, firstRepeat?]
    cases taken.lookup name with
    | none => simp only [ih, List.append_assoc, List.singleton_append]
    | some first => rfl

end PairedSource.Assembly
