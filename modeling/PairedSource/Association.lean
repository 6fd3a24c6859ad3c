namespace PairedSource.Association

variable {α β : Type} [BEq α] [LawfulBEq α]

/-- Changes the value of a key where it stands, or adds the key at the end. -/
def alter (key : α) (f : Option β → β) : List (α × β) → List (α × β)
  | [] => [(key, f none)]
  | (other, value) :: rest =>
    if other == key then (other, f (some value)) :: rest
    else (other, value) :: alter key f rest

def erase (key : α) : List (α × β) → List (α × β)
  | [] => []
  | (other, value) :: rest => if other == key then rest else (other, value) :: erase key rest

theorem lookup_alter_self (key : α) (f : Option β → β) (l : List (α × β)) :
    (alter key f l).lookup key = some (f (l.lookup key)) := by
  induction l with
  | nil => simp [alter]
  | cons entry rest ih =>
    obtain ⟨other, value⟩ := entry
    by_cases h : other = key
    · simp [alter, h]
    · have h' : (key == other) = false := beq_false_of_ne (Ne.symm h)
      simp [alter, h, List.lookup_cons, h', ih]

theorem lookup_alter_of_ne {key other : α} (h : other ≠ key) (f : Option β → β)
    (l : List (α × β)) : (alter key f l).lookup other = l.lookup other := by
  induction l with
  | nil => simp [alter, List.lookup_cons, beq_false_of_ne h]
  | cons entry rest ih =>
    obtain ⟨k, value⟩ := entry
    by_cases hk : k = key
    · simp [alter, hk, List.lookup_cons, beq_false_of_ne h]
    · simp [alter, hk, List.lookup_cons, ih]

theorem alter_eq_self {key : α} {value : β} {l : List (α × β)} (h : l.lookup key = some value) :
    alter key (fun _ ↦ value) l = l := by
  induction l with
  | nil => cases h
  | cons entry rest ih =>
    obtain ⟨other, present⟩ := entry
    by_cases hkey : other = key
    · subst hkey
      rw [List.lookup_cons_self, Option.some.injEq] at h
      simp [alter, h]
    · rw [List.lookup_cons, beq_false_of_ne (Ne.symm hkey)] at h
      simp [alter, hkey, ih h]

theorem keys_alter (key : α) (f : Option β → β) (l : List (α × β)) :
    (alter key f l).map Prod.fst =
      if key ∈ l.map Prod.fst then l.map Prod.fst else l.map Prod.fst ++ [key] := by
  induction l with
  | nil => simp [alter]
  | cons entry rest ih =>
    obtain ⟨other, value⟩ := entry
    by_cases h : other = key
    · simp [alter, h]
    · simp only [alter, beq_iff_eq, h, if_false, List.map_cons, ih, List.mem_cons,
        Ne.symm h, false_or]
      split <;> simp

end PairedSource.Association
