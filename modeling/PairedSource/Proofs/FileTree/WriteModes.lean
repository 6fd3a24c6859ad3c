import PairedSource.Proofs.FileTree.Detours
import PairedSource.Proofs.FileTree.MakeDirectories
import PairedSource.Proofs.FileTree.Put

namespace PairedSource

namespace Node

theorem set_eq_self {node new : Node} {l : Location} (h : node.find? l = some new) :
    node.set l new = node := by
  induction l generalizing node with
  | nil =>
    obtain rfl : node = new := Option.some.inj h
    rfl
  | cons name rest ih =>
    cases node with
    | file content => cases h
    | directory children =>
      cases hchild : children.lookup name with
      | none => simp [find?, hchild] at h
      | some child =>
        have hfind : child.find? rest = some new := by simpa [find?, hchild] using h
        cases rest with
        | nil =>
          obtain rfl : child = new := Option.some.inj hfind
          rw [set, Association.alter_eq_self hchild]
        | cons t rest =>
          rw [set, hchild]
          · simp only [ih hfind, Association.alter_eq_self hchild]
          · simp

end Node

namespace FileTree

variable {tree made next : FileTree} {p : Path} {l : Location} {name text : String}
  {front : List String} {content : ByteArray} {result : Option WriteResult} {overwrite : Overwrite}

theorem set_eq_self (h : tree.fileAt l = some content) : tree.set l (.file content) = tree := by
  rw [set, Node.set_eq_self (fileAt_eq_some_iff.1 h)]

theorem write_always : tree.write p text .always = tree.writeFile p text.toUTF8 := rfl

theorem writeFile_of_file? (h : tree.file? p = some (l, content)) :
    tree.writeFile p content =
      (tree, if isAdmissible (tree.temporary p) && l.getLast?.any isStorable then some .written
        else none) := by
  obtain ⟨directory, name, hslot, hname, rfl⟩ := exists_isSlot_of_file? h
  obtain ⟨hadm, -, hthere⟩ := (hslot.file?_eq_some_iff hname).1 h
  have hplaceable : tree.isPlaceable p directory name =
      (isAdmissible (tree.temporary p) && isStorable name) := by
    simp [isPlaceable, hadm, hname, hthere]
  rw [hslot.writeFile_eq hname, hplaceable, set_eq_self (occupant?_eq_file_iff.1 hthere),
    List.getLast?_concat, Option.any_some]
  split <;> rfl

theorem fst_write_eq : (tree.write p text .ifChanged).1 = (tree.write p text .always).1 := by
  rw [write_always]
  by_cases h : ∃ l, tree.file? p = some (l, text.toUTF8)
  · obtain ⟨l, hfile⟩ := h
    rw [write_eq_unchanged hfile, writeFile_of_file? hfile]
  · rw [write_eq_writeFile (not_exists.1 h)]

theorem write_eq_unchanged_iff : (tree.write p text .ifChanged).2 = some .unchanged ↔
    ∃ l, tree.file? p = some (l, text.toUTF8) := by
  constructor
  · intro h
    by_contra hfile
    rw [write_eq_writeFile (not_exists.1 hfile)] at h
    have hput := put_of_writeFile (Prod.ext rfl h)
    cases hput.1
  · intro h
    obtain ⟨l, hfile⟩ := h
    rw [write_eq_unchanged hfile]

variable (p) in
/-- A later tree in which every new directory is on the way of a path. -/
structure LaterAlong (touched : Location → Prop) (tree later : FileTree) : Prop
    extends Later touched tree later where
  onTheWay : ∀ l, tree.occupant? l = none → later.occupant? l = some none → OnTheWay tree l p

theorem directory_of_place (h : tree.place p content = some next)
    (hl : next.occupant? l = some none) : tree.occupant? l = some none := by
  obtain ⟨directory, name, hslot, -, -, hfree, rfl⟩ := exists_set_of_place h
  rw [occupant?_set hslot.isDirectory hfree] at hl
  split at hl
  · cases hl
  · exact hl

theorem onTheWay_of_writeFile (h : tree.writeFile p content = (next, result))
    (hnone : tree.occupant? l = none) (hdir : next.occupant? l = some none) :
    OnTheWay tree l p := by
  have hmade : (tree.makeDirectories (directoryFor p).ancestors).1.occupant? l = some none →
      OnTheWay tree l p := by
    intro hthere
    obtain ⟨q, hq, hleads⟩ := exists_leadsDown hnone (by rw [hthere]; exact Option.some_ne_none _)
    exact hleads.onTheWay hq
  unfold writeFile at h
  split at h
  · rename_i made heq
    obtain ⟨rfl, -⟩ := Prod.mk.inj h
    rw [heq] at hmade
    exact hmade hdir
  · rename_i made heq
    rw [heq] at hmade
    split at h
    · rename_i placed hplace
      obtain ⟨rfl, -⟩ := Prod.mk.inj h
      exact hmade (directory_of_place hplace hdir)
    · obtain ⟨rfl, -⟩ := Prod.mk.inj h
      exact hmade hdir

variable (tree p) in
/-- The path and that of its temporary file are not too long, and neither is any name. -/
structure WithinLimits : Prop where
  path : isAdmissible p = true
  temporary : isAdmissible (tree.temporary p) = true
  storable : ∀ s ∈ p.segments, isStorable s = true

/-- A directory is where a name leads, or it will be because the way to the name is through it. -/
def EndsAtDirectory (tree : FileTree) (start : Location) (front : List String) (name : String) :
    Prop :=
  tree.occupant? (destination start (front ++ [name])) = some none ∨
    ∃ before, before <+: front ∧ destination start before = destination start (front ++ [name])

theorem endsAtDirectory_iff_exists_walk {a : Location} (hup : ".." ∉ front)
    (hname : isName name = true) : EndsAtDirectory tree a front name ↔
      ∃ l, tree.walk a (front ++ [name]) = .ok l ∧ tree.occupant? l = some none := by
  have hup' : ".." ∉ front ++ [name] := by
    rw [List.mem_append, List.mem_singleton, not_or]
    exact ⟨hup, (isName_iff.1 hname).2.2.symm⟩
  constructor
  · intro h
    rcases h with hdir | ⟨before, ⟨rest, hrest⟩, heq⟩
    · exact ⟨_, walk_of_isDirectory hup' hdir, hdir⟩
    · have hlonger : (destination a before).length < (destination a (front ++ [name])).length := by
        have hrestUp : ".." ∉ rest := fun hmem ↦ hup (hrest ▸ List.mem_append_right _ hmem)
        rw [destination_concat, descend_name hname, ← hrest, destination_append,
          List.length_append]
        exact Nat.lt_succ_of_le (length_le_destination hrestUp)
      rw [heq] at hlonger
      exact absurd hlonger (Nat.lt_irrefl _)
  · intro h
    obtain ⟨l, hw, hdir⟩ := h
    exact .inl (by rwa [← destination_of_walk hw])

/-- Once the directories on the way are made, a directory stands at the end only if one stood there
before or is on the way itself. -/
theorem endsAtDirectory_iff {there : Bool} (hseg : p.segments = front ++ [name])
    (hmade : tree.makeDirectories (directoryFor p).ancestors = (next, there))
    (hwalk : next.walk (tree.start p) front = .ok (destination (tree.start p) front))
    (hdir : next.occupant? (destination (tree.start p) front) = some none) :
    next.occupant? (destination (tree.start p) (front ++ [name])) = some none ↔
      EndsAtDirectory tree (tree.start p) front name := by
  have hlater := later_makeDirectories tree (directoryFor p).ancestors
  rw [hmade] at hlater
  constructor
  · intro h
    rcases hl : tree.occupant? (destination (tree.start p) (front ++ [name])) with _ | _ | content
    · have hsome : (tree.makeDirectories (directoryFor p).ancestors).1.occupant?
          (destination (tree.start p) (front ++ [name])) ≠ none := by
        rw [hmade, h]
        exact Option.some_ne_none _
      obtain ⟨q, hq, hleads⟩ := exists_leadsDown hl hsome
      obtain ⟨before, hbefore, hne, heq⟩ := hleads.onTheWay hq
      rw [hseg] at hbefore hne
      exact .inr ⟨before, (List.prefix_concat_iff.1 hbefore).resolve_left hne, heq.symm⟩
    · exact .inl hl
    · rw [occupant?_eq_file_iff, ← hlater.fileAt _ id, ← occupant?_eq_file_iff, h] at hl
      cases hl
  · intro h
    rcases h with h | ⟨before, hbefore, heq⟩
    · exact hlater.directory _ h
    · rw [← heq]
      exact isDirectory_of_walk hwalk hdir hbefore

section Failure

variable (hseg : p.segments = front ++ [name]) (hname : isName name = true)

include hseg hname

theorem writeFile_of_start (hstart : tree.occupant? (tree.start p) ≠ some none) :
    (tree.writeFile p content).2 = none := by
  have hmade : (tree.makeDirectories (directoryFor p).ancestors).1 = tree :=
    makeDirectories_of_start fun q hq ↦ by rwa [start_of_mem_ancestors hseg hname hq]
  unfold writeFile
  split
  · rfl
  · rename_i made heq
    rw [heq] at hmade
    obtain rfl : made = tree := hmade
    split
    · rename_i placed hplace
      obtain ⟨directory, name, hslot, -⟩ := exists_set_of_place hplace
      exact absurd hslot.isDirectory_start hstart
    · rfl

theorem writeFile_eq_none_iff (h : WithinLimits tree p) : (tree.writeFile p content).2 = none ↔
    tree.occupant? (tree.start p) = none ∨ IsBlocked tree (tree.start p) front ∨
      EndsAtDirectory tree (tree.start p) front name := by
  by_cases hstart : tree.occupant? (tree.start p) = some none
  · have hmade := made_directoryFor hstart h.path hseg hname fun s hs ↦
      h.storable s (by rw [hseg]; exact List.mem_append_left _ hs)
    rw [writeFile]
    cases hresult : tree.makeDirectories (directoryFor p).ancestors with
    | mk next there =>
    rw [hresult] at hmade
    cases hmade with
    | blocked hblocked => exact iff_of_true rfl (.inr (.inl hblocked))
    | opened hlater hwalk hdir =>
      have hslot : IsSlot next p (destination (tree.start p) front) name :=
        ⟨⟨front, hseg, by rw [hlater.start_eq, hwalk]⟩, hdir⟩
      have hplaceable : next.isPlaceable p (destination (tree.start p) front) name = true ↔
          ¬EndsAtDirectory tree (tree.start p) front name := by
        have htemporary := h.temporary
        rw [temporary, ← hlater.workingDirectory, ← temporary] at htemporary
        have hlast := h.storable name (by rw [hseg]; simp)
        rw [isPlaceable_iff, ← endsAtDirectory_iff hseg hresult hwalk hdir,
          destination_concat, descend_name hname]
        simp [h.path, htemporary, hname, hlast]
      have hfree : ¬IsBlocked tree (tree.start p) front := by
        intro hblocked
        obtain ⟨before, hbefore, hfile⟩ := hblocked
        rw [← hlater.fileAt _ id] at hfile
        exact IsBlocked.occupant?_ne ⟨before, hbefore, hfile⟩ hwalk hdir
      simp only [hslot.place_eq, hstart, hfree, reduceCtorEq, false_or]
      by_cases hends : EndsAtDirectory tree (tree.start p) front name
      · rw [if_neg (mt hplaceable.1 (not_not_intro hends))]
        exact iff_of_true rfl hends
      · rw [if_pos (hplaceable.2 hends)]
        exact iff_of_false (Option.some_ne_none _) hends
  · refine iff_of_true (writeFile_of_start hseg hname hstart) ?_
    by_cases hnone : tree.occupant? (tree.start p) = none
    · exact .inl hnone
    · have hfile := isSome_fileAt (Option.ne_none_iff_isSome.1 hnone) hstart
      exact .inr (.inl ⟨[], List.nil_prefix, hfile⟩)

end Failure

theorem write_eq_none_iff (h : WithinLimits tree p) :
    (tree.write p text overwrite).2 = none ↔ (tree.writeFile p text.toUTF8).2 = none := by
  cases overwrite with
  | always => rfl
  | ifChanged =>
    by_cases hthere : ∃ l, tree.file? p = some (l, text.toUTF8)
    · obtain ⟨l, hfile⟩ := hthere
      obtain ⟨directory, name, hslot, -, rfl⟩ := exists_isSlot_of_file? hfile
      obtain ⟨front, hseg, -⟩ := hslot.front
      have hstorable := h.storable name (by simp [hseg])
      rw [write_eq_unchanged hfile, writeFile_of_file? hfile, h.temporary, List.getLast?_concat,
        Option.any_some, hstorable]
      simp
    · rw [write_eq_writeFile (not_exists.1 hthere)]

theorem laterAlong_of_writeFile {result : WriteResult}
    (h : tree.writeFile p content = (next, some result)) :
    ∃ l, next.file? p = some (l, content) ∧ LaterAlong p (· = l) tree next := by
  obtain ⟨-, place, name, hput⟩ := put_of_writeFile h
  exact ⟨_, hput.file, hput.later, fun l hnone hdir ↦ onTheWay_of_writeFile h hnone hdir⟩

theorem laterAlong_of_write {result : WriteResult}
    (h : tree.write p text overwrite = (next, some result)) :
    ∃ l, next.file? p = some (l, text.toUTF8) ∧ LaterAlong p (· = l) tree next := by
  cases overwrite with
  | always => exact laterAlong_of_writeFile h
  | ifChanged =>
    by_cases hthere : ∃ l, tree.file? p = some (l, text.toUTF8)
    · obtain ⟨l, hfile⟩ := hthere
      rw [write_eq_unchanged hfile] at h
      obtain ⟨rfl, -⟩ := Prod.mk.inj h
      refine ⟨l, hfile, .refl _ tree, fun l hnone hdir ↦ ?_⟩
      rw [hnone] at hdir
      cases hdir
    · rw [write_eq_writeFile (not_exists.1 hthere)] at h
      exact laterAlong_of_writeFile h

theorem laterAlong_of_write_none (h : tree.write p text overwrite = (next, none)) :
    LaterAlong p (fun _ ↦ False) tree next := by
  refine ⟨later_of_write h, fun l hnone hdir ↦ ?_⟩
  cases overwrite with
  | always => exact onTheWay_of_writeFile h hnone hdir
  | ifChanged =>
    have hthere : ¬∃ l, tree.file? p = some (l, text.toUTF8) := by
      intro hthere
      obtain ⟨l, hfile⟩ := hthere
      rw [write_eq_unchanged hfile] at h
      cases h
    rw [write_eq_writeFile (not_exists.1 hthere)] at h
    exact onTheWay_of_writeFile h hnone hdir

/-- Writing only what has changed leaves the same tree as writing always. A success puts the content
at the path and touches no other file, a failure touches none, and new directories are on the way of
the path. As long as nothing is too long, both succeed or fail alike, and a path that ends in a name
fails only for a file in its way, for a directory at its end, or for want of a directory to start
from: without steps up, a file or a directory that is reached already. -/
theorem write_modes_equivalent (tree : FileTree) (p : Path) (text : String) :
    (tree.write p text .ifChanged).1 = (tree.write p text .always).1 ∧
    ((tree.write p text .ifChanged).2 = some .unchanged ↔
      ∃ l, tree.file? p = some (l, text.toUTF8)) ∧
    (∀ overwrite next result, tree.write p text overwrite = (next, some result) →
      ∃ l, next.file? p = some (l, text.toUTF8) ∧ LaterAlong p (· = l) tree next) ∧
    (∀ overwrite next, tree.write p text overwrite = (next, none) →
      LaterAlong p (fun _ ↦ False) tree next) ∧
    (WithinLimits tree p →
      ((tree.write p text .ifChanged).2 = none ↔ (tree.write p text .always).2 = none) ∧
      ∀ overwrite front name, p.segments = front ++ [name] → isName name = true →
        ((tree.write p text overwrite).2 = none ↔
          tree.occupant? (tree.start p) = none ∨ IsBlocked tree (tree.start p) front ∨
            EndsAtDirectory tree (tree.start p) front name) ∧
        (".." ∉ front → ((tree.write p text overwrite).2 = none ↔
          tree.occupant? (tree.start p) = none ∨
          (∃ before l, before <+: front ∧ tree.walk (tree.start p) before = .ok l ∧
            (tree.fileAt l).isSome = true) ∨
          ∃ l, tree.walk (tree.start p) p.segments = .ok l ∧ tree.occupant? l = some none))) := by
  refine ⟨fst_write_eq, write_eq_unchanged_iff, fun _ _ _ ↦ laterAlong_of_write,
    fun _ _ ↦ laterAlong_of_write_none, fun hlimits ↦ ⟨?_, ?_⟩⟩
  · rw [write_eq_none_iff hlimits, write_eq_none_iff hlimits]
  · intro overwrite front name hseg hname
    have hfails : (tree.write p text overwrite).2 = none ↔ _ :=
      (write_eq_none_iff hlimits).trans (writeFile_eq_none_iff hseg hname hlimits)
    refine ⟨hfails, fun hup ↦ ?_⟩
    rw [hfails, isBlocked_iff_exists_walk hup, endsAtDirectory_iff_exists_walk hup hname, hseg]

def desk : FileTree where
  root := .directory [("notes", .file "one".toUTF8), ("drafts", .directory [])]
  workingDirectory := []

theorem write_modes_equivalent_desk :
    WithinLimits desk ⟨"drafts/../notes/a"⟩ ∧
      (desk.write ⟨"drafts/../notes/a"⟩ "two" .ifChanged).2 = none ∧
      (desk.write ⟨"drafts/../notes/a"⟩ "two" .always).2 = none := by
  have hlimits : WithinLimits desk ⟨"drafts/../notes/a"⟩ := ⟨by decide, by decide, by decide⟩
  have hblocked : IsBlocked desk [] ["drafts", "..", "notes"] :=
    ⟨["drafts", "..", "notes"], List.prefix_refl _, by decide⟩
  obtain ⟨-, -, -, -, hfails⟩ := write_modes_equivalent desk ⟨"drafts/../notes/a"⟩ "two"
  obtain ⟨halike, hfails⟩ := hfails hlimits
  have halways := (hfails .always ["drafts", "..", "notes"] "a" (by decide) (by decide)).1.2
    (.inr (.inl hblocked))
  exact ⟨hlimits, halike.2 halways, halways⟩

/-- The temporary file has a longer path than the file itself. -/
theorem isAdmissible_temporary_afterDetours (tree : FileTree) {n : Nat} (hslash : '/' ∉ name.toList)
    (hname : isName name = true) (hlong : maxPathLength < 5 * n + 14) :
    isAdmissible (tree.temporary (afterDetours n name)) = false := by
  have hn := isName_iff.1 hname
  have hsize := utf8ByteSize_detours n
  have hdirectory : directoryFor (afterDetours n name) = ⟨"/".intercalate (detours (n + 1))⟩ := by
    rw [directoryFor_of_parent? (parent?_afterDetours n hslash hn.1 hn.2.1), if_neg]
    intro hempty
    change "/".intercalate (detours (n + 1)) = "" at hempty
    rw [hempty, String.utf8ByteSize_empty] at hsize
    omega
  have htemporary : ".tmpXXXXXX".utf8ByteSize = 10 := rfl
  have hrelative : (Path.mk ".tmpXXXXXX").isAbsolute = false := by decide
  rw [Bool.eq_false_iff, ne_eq, isAdmissible_iff, not_and_or, temporary, hdirectory]
  left
  have hjoin := Path.utf8ByteSize_le_join ⟨"/" ++ "/".intercalate tree.workingDirectory⟩
    ⟨"/".intercalate (detours (n + 1))⟩
  have hplace := Path.utf8ByteSize_add_le_join hrelative
    (p := (Path.mk ("/" ++ "/".intercalate tree.workingDirectory)).join
      ⟨"/".intercalate (detours (n + 1))⟩)
  rw [hsize] at hjoin
  rw [htemporary] at hplace
  omega

def corridor : FileTree where
  root := .directory [("x", .directory []), ("a", .file "t".toUTF8)]
  workingDirectory := []

theorem file?_corridor : corridor.file? (afterDetours 817 "a") = some (["a"], "t".toUTF8) := by
  have hadmissible : isAdmissible (afterDetours 817 "a") = true :=
    isAdmissible_afterDetours 817 (by decide) (by decide)
  have hstart : corridor.start (afterDetours 817 "a") = [] := by
    unfold start
    split <;> rfl
  refine file?_eq_some_iff.2 ⟨hadmissible, ?_, rfl⟩
  rw [segments_afterDetours 817 (by decide), walk_append, hstart,
    walk_detours_of_isDirectory (a := []) rfl rfl]
  rfl

def bare : FileTree where
  root := .directory []
  workingDirectory := []

theorem isSlot_bare (hslash : '/' ∉ name.toList) : IsSlot bare ⟨name⟩ [] name := by
  have hstart : bare.start ⟨name⟩ = [] := by
    unfold start
    split <;> rfl
  exact ⟨⟨[], Path.segments_mk hslash, by rw [hstart]; rfl⟩, rfl⟩

theorem write_bare_of_not_isStorable (hslash : '/' ∉ name.toList) (hname : isName name = true)
    (hlong : isStorable name = false) :
    (bare.write ⟨name⟩ text .always).2 = none ∧ bare.isDirectory ⟨name⟩ = false := by
  have hslot := isSlot_bare hslash
  constructor
  · have hrefused : ¬bare.isPlaceable ⟨name⟩ [] name = true := by
      rw [isPlaceable_iff, hlong]
      simp
    rw [write_always, hslot.writeFile_eq hname, if_neg hrefused]
  · rw [Bool.eq_false_iff, ne_eq, isDirectory_iff]
    intro h
    obtain ⟨-, -, l, children, hw, hl⟩ := h
    obtain ⟨front, hseg, -⟩ := hslot.front
    obtain ⟨directory, hslot', rfl⟩ := exists_isSlot_of_walk hseg hname hw
    obtain rfl := hslot.unique hslot'
    cases hl

def longName (n : Nat) : String :=
  String.ofList (List.replicate n 'a')

theorem utf8ByteSize_longName (n : Nat) : (longName n).utf8ByteSize = n := by
  induction n with
  | zero => rfl
  | succ n ih =>
    have hone : (String.singleton 'a').utf8ByteSize = 1 := rfl
    rw [longName] at ih ⊢
    rw [List.replicate_succ, String.ofList_cons, String.utf8ByteSize_append, ih]
    omega

theorem slash_notMem_longName (n : Nat) : '/' ∉ (longName n).toList := by
  simp [longName, List.mem_replicate]

theorem isName_longName (n : Nat) : isName (longName (n + 1)) = true := by
  simp [isName_iff, longName, List.replicate_succ, ← String.toList_inj]

theorem isStorable_longName {n : Nat} (h : 255 < n) : isStorable (longName n) = false := by
  rw [isStorable, utf8ByteSize_longName]
  exact decide_eq_false (Nat.not_le.2 h)

/-- A file is left alone that could not be written; and a path fails in an empty directory because
it leads through its own target, or because its name is too long. -/
theorem write_fails_unobstructed :
    ((corridor.write (afterDetours 817 "a") "t" .ifChanged).2 = some .unchanged ∧
      (corridor.write (afterDetours 817 "a") "t" .always).2 = none) ∧
    bare.files = [] ∧
    ((bare.write ⟨"x/../x"⟩ "t" .always).2 = none ∧ bare.isDirectory ⟨"x/../x"⟩ = false) ∧
    (bare.write ⟨longName 256⟩ "t" .always).2 = none ∧
      bare.isDirectory ⟨longName 256⟩ = false := by
  refine ⟨⟨?_, ?_⟩, rfl, ⟨?_, by decide⟩, ?_⟩
  · rw [write_eq_unchanged file?_corridor]
  · have htemporary : isAdmissible (corridor.temporary (afterDetours 817 "a")) = false :=
      isAdmissible_temporary_afterDetours corridor (by decide) (by decide) (by decide)
    rw [write_always, writeFile_of_file? file?_corridor, htemporary]
    rfl
  · have hlimits : WithinLimits bare ⟨"x/../x"⟩ := ⟨by decide, by decide, by decide⟩
    have hseg : (Path.mk "x/../x").segments = ["x", ".."] ++ ["x"] := by decide
    rw [write_always, writeFile_eq_none_iff hseg (by decide) hlimits]
    exact .inr (.inr (.inr ⟨["x"], by decide, rfl⟩))
  · exact write_bare_of_not_isStorable (slash_notMem_longName 256) (isName_longName 255)
      (isStorable_longName (by decide))

end FileTree

end PairedSource
