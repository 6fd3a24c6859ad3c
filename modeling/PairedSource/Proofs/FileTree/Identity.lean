import PairedSource.FileTree.Identity
import PairedSource.Proofs.FileTree.Agree

namespace PairedSource.FileTree

variable {tree other : FileTree} {p q : Path} {a b l l' : Location} {c c' : ByteArray}
  {segments : List String}

theorem nameLength_append (l l' : Location) :
    nameLength (l ++ l') = nameLength l + nameLength l' := by
  induction l with
  | nil => rw [List.nil_append, nameLength, Nat.zero_add]
  | cons name l ih =>
    rw [List.cons_append, nameLength, ih, nameLength]
    omega

theorem nameLength_replicate (n : Nat) (name : String) :
    nameLength (List.replicate n name) = n * (name.utf8ByteSize + 1) := by
  induction n with
  | zero => rw [Nat.zero_mul, List.replicate_zero, nameLength]
  | succ n ih =>
    rw [List.replicate_succ, nameLength, ih, Nat.succ_mul]
    omega

theorem canonical?_eq : tree.canonical? p =
    if isNameable (tree.start p) p.segments then (tree.locate p).toOption else none := by
  rw [canonical?]
  cases tree.locate p with
  | error e => rw [Except.toOption, ite_self]
  | ok l => rfl

theorem Agree.canonical?_eq {scope : Location → Prop} (h : Agree scope tree other)
    (hp : EndsWithin scope tree p) : tree.canonical? p = other.canonical? p := by
  rw [FileTree.canonical?_eq, FileTree.canonical?_eq, h.start_eq, h.toOption_locate_eq hp]

section File

variable (h : tree.file? p = some (l, c))

include h

theorem canonical?_of_file? :
    tree.canonical? p = if isNameable (tree.start p) p.segments then some l else none := by
  rw [canonical?_eq, (file?_eq_some_iff_locate.1 h).1]
  rfl

theorem identity_of_file? : tree.identity p =
    if isNameable (tree.start p) p.segments then .found l else .spelled p.components := by
  rw [identity, canonical?_of_file? h]
  split <;> rfl

end File

section Steps

/-- Where a step leads, whether anything is there or not. -/
def after : Location → Path.Component → Location
  | _, .root => []
  | a, .current => a
  | a, .parent => a.dropLast
  | a, .name name => a ++ [name]

theorem eq_foldl_of_walk (h : tree.walk a segments = .ok b) :
    b = (segments.filterMap Path.Component.ofSegment?).foldl after a := by
  induction segments generalizing a with
  | nil => exact (Except.ok.inj h).symm
  | cons s segments ih =>
    rw [walk_cons, Except.bind_eq_ok_iff] at h
    obtain ⟨m, hs, hm⟩ := h
    rw [ih hm]
    obtain ⟨_, -, hcase⟩ := step_eq_ok hs
    rcases hcase with ⟨hidle, rfl⟩ | ⟨rfl, rfl⟩ | ⟨hname, -, rfl⟩
    · have hnone : Path.Component.ofSegment? s = none := if_pos hidle
      rw [List.filterMap_cons_none hnone]
    · rfl
    · obtain ⟨hempty, hdot, hup⟩ := isName_iff.1 hname
      have hsome : Path.Component.ofSegment? s = some (.name s) := by
        rw [Path.Component.ofSegment?, if_neg (not_or.2 ⟨hempty, hdot⟩), if_neg hup]
      rw [List.filterMap_cons_some hsome]
      rfl

theorem eq_foldl_of_locate (h : tree.locate p = .ok l) :
    l = p.components.foldl after tree.workingDirectory := by
  obtain ⟨-, -, hw⟩ := locate_eq_ok_iff.1 h
  have hl := eq_foldl_of_walk hw
  obtain ⟨first, rest, hseg⟩ := List.exists_cons_of_ne_nil p.segments_ne_nil
  rw [hl, Path.components_eq hseg, hseg, start]
  by_cases habs : p.isAbsolute = true
  · obtain ⟨s, more, hroot⟩ := Path.isAbsolute_iff.1 habs
    obtain rfl := (List.cons.inj (hseg.symm.trans hroot)).1
    rw [if_pos habs, if_pos habs]
    rfl
  · rw [if_neg habs, if_neg habs]
    by_cases hdot : first = "."
    · subst hdot
      rfl
    · rw [if_neg hdot, List.filterMap_cons]
      cases Path.Component.ofSegment? first <;> rfl

theorem location_eq_of_same (h : p.Same q)
    (hworking : tree.workingDirectory = other.workingDirectory) (hp : tree.file? p = some (l, c))
    (hq : other.file? q = some (l', c')) : l = l' := by
  rw [eq_foldl_of_locate (file?_eq_some_iff_locate.1 hp).1,
    eq_foldl_of_locate (file?_eq_some_iff_locate.1 hq).1, hworking, h]

/-- Files that are known by the same are the same. -/
theorem location_eq_of_identity_eq (h : tree.identity p = tree.identity q)
    (hp : tree.file? p = some (l, c)) (hq : tree.file? q = some (l', c')) : l = l' := by
  rw [identity_of_file? hp, identity_of_file? hq] at h
  split at h <;> split at h
  · exact Identity.found.inj h
  · cases h
  · cases h
  · exact location_eq_of_same (Identity.spelled.inj h) rfl hp hq

end Steps

end PairedSource.FileTree
