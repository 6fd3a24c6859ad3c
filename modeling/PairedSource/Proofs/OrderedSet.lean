import Mathlib.Data.List.Perm.Subperm
import PairedSource.OrderedSet
import PairedSource.Proofs.Lists

namespace PairedSource.OrderedSet

variable {α : Type} [DecidableEq α]

theorem Same.perm {s t : OrderedSet α} (h : s.Same t) : s.toList.Perm t.toList := by
  have hsubperm : s.toList.Subperm t.toList := List.subperm_of_subset s.nodup h.2
  exact hsubperm.perm_of_length_le (Nat.le_of_eq h.1.symm)

/-- Elements come in at the place of their first occurrence. -/
theorem toList_insertAll_eq_eraseDups (s : OrderedSet α) (l : List α) :
    (s.insertAll l).toList = (s.toList ++ l).eraseDups := by
  induction l generalizing s with
  | nil =>
    rw [List.append_nil, List.eraseDups_of_nodup s.nodup]
    rfl
  | cons a l ih =>
    have hcons : s.insertAll (a :: l) = (s.insert a).insertAll l := rfl
    rw [hcons, ih, toList_insert]
    split
    · rename_i ha
      have hremove : (a :: l).removeAll s.toList = l.removeAll s.toList := by
        simp [List.removeAll, mem_toList, ha]
      rw [List.eraseDups_append, List.eraseDups_append, hremove]
    · rw [List.append_assoc, List.singleton_append]

theorem foldl_merge {β : Type} (f : β → OrderedSet α) (s : OrderedSet α) (bs : List β) :
    bs.foldl (fun s b ↦ s.merge (f b)) s = s.insertAll (bs.flatMap fun b ↦ (f b).toList) := by
  induction bs generalizing s with
  | nil => rfl
  | cons b bs ih => rw [List.foldl_cons, ih, List.flatMap_cons, insertAll_append, merge]

end PairedSource.OrderedSet
