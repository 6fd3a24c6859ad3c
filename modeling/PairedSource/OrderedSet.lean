namespace PairedSource

/-- A set whose elements keep the order in which they came in. -/
structure OrderedSet (α : Type) [DecidableEq α] where
  toList : List α
  nodup : toList.Nodup

namespace OrderedSet

variable {α : Type} [DecidableEq α]

instance : EmptyCollection (OrderedSet α) := ⟨[], List.nodup_nil⟩

instance : Inhabited (OrderedSet α) := ⟨∅⟩

instance : Membership α (OrderedSet α) := ⟨fun s a ↦ a ∈ s.toList⟩

instance (s : OrderedSet α) (a : α) : Decidable (a ∈ s) :=
  inferInstanceAs (Decidable (a ∈ s.toList))

theorem mem_toList {s : OrderedSet α} {a : α} : a ∈ s.toList ↔ a ∈ s := Iff.rfl

def size (s : OrderedSet α) : Nat := s.toList.length

def isEmpty (s : OrderedSet α) : Bool := s.toList.isEmpty

def insert (s : OrderedSet α) (a : α) : OrderedSet α :=
  if h : a ∈ s then s
  else
    { toList := s.toList ++ [a]
      nodup := by
        have hs := s.nodup
        rw [List.nodup_append]
        refine ⟨hs, by simp, fun b hb c hc ↦ ?_⟩
        rw [List.mem_singleton.1 hc]
        rintro rfl
        exact h hb }

def insertAll (s : OrderedSet α) (l : List α) : OrderedSet α :=
  l.foldl insert s

def merge (s t : OrderedSet α) : OrderedSet α :=
  s.insertAll t.toList

def Same (s t : OrderedSet α) : Prop :=
  s.size = t.size ∧ ∀ a ∈ s.toList, a ∈ t

instance (s t : OrderedSet α) : Decidable (s.Same t) :=
  inferInstanceAs (Decidable (_ ∧ _))

theorem toList_insert (s : OrderedSet α) (a : α) :
    (s.insert a).toList = if a ∈ s then s.toList else s.toList ++ [a] := by
  unfold insert
  split <;> rfl

theorem insertAll_append (s : OrderedSet α) (l l' : List α) :
    s.insertAll (l ++ l') = (s.insertAll l).insertAll l' :=
  List.foldl_append

theorem toList_insertAll {s : OrderedSet α} {l : List α} (h : (s.toList ++ l).Nodup) :
    (s.insertAll l).toList = s.toList ++ l := by
  induction l generalizing s with
  | nil => simp [insertAll]
  | cons a l ih =>
    have ha : a ∉ s := by
      intro hmem
      exact (List.nodup_append.1 h).2.2 a hmem a List.mem_cons_self rfl
    have hinsert : (s.insert a).toList = s.toList ++ [a] := by rw [toList_insert, if_neg ha]
    rw [insertAll, List.foldl_cons, ← insertAll, ih, hinsert, List.append_assoc,
      List.singleton_append]
    rwa [hinsert, List.append_assoc, List.singleton_append]

end OrderedSet

end PairedSource
