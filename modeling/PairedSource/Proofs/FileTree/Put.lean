import PairedSource.Proofs.FileTree.Later
import PairedSource.Proofs.FileTree.Writing

namespace PairedSource.FileTree

variable {tree next : FileTree} {p q : Path} {place l : Location} {name name' text : String}
  {content : ByteArray} {result : WriteResult} {overwrite : Overwrite}

/-- A path leads to a content that was put there, whether the directories above it were there
before or not. -/
structure Put (tree : FileTree) (p : Path) (content : ByteArray) (place : Location) (name : String)
    (next : FileTree) : Prop where
  isSlot : IsSlot next p place name
  file : next.file? p = some (place ++ [name], content)
  later : Later (· = place ++ [name]) tree next

theorem put_of_writeFile (h : tree.writeFile p content = (next, some result)) :
    result = .written ∧ ∃ place name, Put tree p content place name next := by
  have hmade := later_makeDirectories tree (directoryFor p).ancestors
  unfold writeFile at h
  split at h
  · cases h
  · rename_i made heq
    rw [heq] at hmade
    split at h
    · rename_i placed hplace
      obtain ⟨rfl, hresult⟩ := Prod.mk.inj h
      obtain ⟨place, name, hslot, hname, hadm, hcontent, hlater⟩ := place_eq_some hplace
      have hslot' := hlater.isSlot hslot
      refine ⟨(Option.some.inj hresult).symm, place, name, hslot', ?_,
        (hmade.trans hlater).mono fun l hl ↦ hl.resolve_left id⟩
      exact (hslot'.file?_eq_some_iff hname).2 ⟨hadm, rfl, occupant?_eq_file_iff.2 hcontent⟩
    · cases h

theorem later_of_writeFile (h : tree.writeFile p content = (next, none)) :
    Later (fun _ ↦ False) tree next := by
  have hmade := later_makeDirectories tree (directoryFor p).ancestors
  unfold writeFile at h
  split at h
  · rename_i made heq
    rw [heq] at hmade
    obtain ⟨rfl, -⟩ := Prod.mk.inj h
    exact hmade
  · rename_i made heq
    rw [heq] at hmade
    split at h
    · cases h
    · obtain ⟨rfl, -⟩ := Prod.mk.inj h
      exact hmade

/-- What is written is put where its path leads to in the end. It is left alone only if it could be
read there in the first place. -/
theorem put_of_write (h : tree.write p text .ifChanged = (next, some result)) :
    ∃ place name, Put tree p text.toUTF8 place name next ∧
      (result = .unchanged ↔ tree.file? p = some (place ++ [name], text.toUTF8)) := by
  by_cases hthere : ∃ l, tree.file? p = some (l, text.toUTF8)
  · obtain ⟨l, hfile⟩ := hthere
    rw [write_eq_unchanged hfile] at h
    obtain ⟨rfl, hresult⟩ := Prod.mk.inj h
    obtain ⟨place, name, hslot, -, rfl⟩ := exists_isSlot_of_file? hfile
    exact ⟨place, name, ⟨hslot, hfile, .refl _ tree⟩, fun _ ↦ hfile,
      fun _ ↦ (Option.some.inj hresult).symm⟩
  · rw [write_eq_writeFile (not_exists.1 hthere)] at h
    obtain ⟨rfl, place, name, hput⟩ := put_of_writeFile h
    exact ⟨place, name, hput, nofun, fun hfile ↦ absurd ⟨_, hfile⟩ hthere⟩

theorem later_of_write (h : tree.write p text overwrite = (next, none)) :
    Later (fun _ ↦ False) tree next := by
  simp only [write] at h
  split at h
  · split at h
    · cases h
    · exact later_of_writeFile h
  · exact later_of_writeFile h

theorem IsSlot.of_join (h : IsSlot tree (q.join ⟨name⟩) place name') (hslash : '/' ∉ name.toList) :
    name' = name ∧ tree.walk (tree.start q) q.segments = .ok place := by
  have hstart : tree.start (q.join ⟨name⟩) = tree.start q := by
    simp only [start, Path.isAbsolute_join (Path.isAbsolute_mk hslash)]
  obtain ⟨⟨front, hseg, hw⟩, hdir⟩ := h
  rw [hstart] at hw
  rcases Path.segments_join_mk hslash q with hj | ⟨front', hq, hj⟩
  · obtain ⟨rfl, hlast⟩ := List.append_inj' (hseg.symm.trans hj) rfl
    exact ⟨List.singleton_inj.1 hlast, hw⟩
  · obtain ⟨rfl, hlast⟩ := List.append_inj' (hseg.symm.trans hj) rfl
    refine ⟨List.singleton_inj.1 hlast, ?_⟩
    rw [hq, walk_append, hw, Except.ok_bind, walk_singleton]
    exact step_eq_ok_iff.2 ⟨hdir, .inl ⟨.inl rfl, rfl⟩⟩

end PairedSource.FileTree
