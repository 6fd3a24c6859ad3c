import PairedSource.Proofs.Concurrent.Outcomes

namespace PairedSource

open Invocation Progress

section Transfer

variable {config : RunConfig} {allowed allowed' : Request → Prop}
  {initial tree tree' view view' : FileTree}
  {progress progress' : Progress} {n m : Nat} {scope own : Location → Prop}
  {result result' : Except Error RunReport}

theorem Alone.unique (h : Alone config allowed tree progress n tree' (.finished result))
    (h' : Alone config allowed' tree progress m view' (.finished result')) :
    tree' = view' ∧ result = result' := by
  generalize hend : Progress.finished result = last at h
  induction h generalizing m with
  | nil =>
    subst hend
    cases h' with
    | nil => exact ⟨rfl, rfl⟩
    | cons haction => cases haction
  | cons haction _ _ ih =>
    cases h' with
    | nil => cases haction
    | cons haction' _ hrest =>
      obtain ⟨rfl, hnext⟩ := Action.ask.inj (haction.symm.trans haction')
      obtain rfl := eq_of_heq hnext
      exact ih hrest hend

/-- A run that stays within a scope goes the same way with all files that agree there. -/
theorem Alone.transfer
    (h : Alone config (FileTree.Allows initial scope own) view progress n view' progress')
    (hdirectories : FileTree.Agree (fun _ ↦ False) initial tree)
    (hagree : FileTree.Agree scope tree view) :
    ∃ tree', Alone config (fun _ ↦ True) tree progress n tree' progress' ∧
      FileTree.Agree scope tree' view' ∧ FileTree.Agree (¬own ·) tree' tree := by
  induction h generalizing tree with
  | nil => exact ⟨tree, .nil _ _, hagree, .refl _ _⟩
  | @cons view view' progress progress' request next n haction hallowed _ ih =>
    have hallowed' := hdirectories.allows hallowed
    obtain ⟨hanswer, hserved⟩ := hagree.serve hallowed'
    have hkept := FileTree.agree_serve hallowed'
    obtain ⟨tree', halone, hend, hown'⟩ :=
      ih (hdirectories.trans (hkept.mono fun _ hfalse ↦ hfalse.elim).symm) hserved
    exact ⟨tree', .cons haction trivial (hanswer ▸ halone), hend, hown'.trans hkept⟩

end Transfer

variable {tree final final' : FileTree} {configs : List RunConfig}
  {place : Nat → Location} {system : System} {index : Nat} {config : RunConfig}
  {generation : Generation} {done : List Nat}

variable (tree configs place) in
/-- Some files after some of the accepted runs are done and the others have not begun. -/
structure RunsDone (done : List Nat) (final : FileTree) : Prop where
  untouched : FileTree.Agree (fun l ↦ ∀ index, ¬Owns tree configs place index l) final tree
  ended : ∀ index config generation,
    accepted? tree configs index = some (config, generation) → index ∈ done →
      FileTree.Agree (Scope tree configs place index) final (runAlone config tree).1
  waiting : ∀ index config generation,
    accepted? tree configs index = some (config, generation) → index ∉ done →
      FileTree.Agree (Scope tree configs place index) final tree

variable (configs) in
def runInOrder (order : List Nat) (tree : FileTree) : FileTree :=
  order.foldl (fun tree index ↦
    match configs[index]? with
    | some config => (runAlone config tree).1
    | none => tree) tree

theorem runsDone_nil (tree : FileTree) (configs : List RunConfig) (place : Nat → Location) :
    RunsDone tree configs place [] tree :=
  ⟨.refl _ tree, fun _ _ _ _ hmem ↦ absurd hmem List.not_mem_nil, fun _ _ _ _ _ ↦ .refl _ tree⟩

namespace SharesDirectory

variable (h : SharesDirectory tree configs place)

include h

theorem runAlone_of_agree (ha : accepted? tree configs index = some (config, generation))
    (hagree : FileTree.Agree (Scope tree configs place index) final tree) :
    (runAlone config final).2 = (runAlone config tree).2 ∧
      FileTree.Agree (Scope tree configs place index) (runAlone config final).1
        (runAlone config tree).1 ∧
      FileTree.Agree (¬Owns tree configs place index ·) (runAlone config final).1 final := by
  obtain ⟨n, halone⟩ := h.reaches ha
  obtain ⟨final', halone', hscope, hown⟩ := halone.transfer
    (hagree.mono fun _ hfalse ↦ hfalse.elim).symm hagree
  have hall : AllowsLoading final config (fun _ ↦ True) :=
    ⟨⟨trivial, trivial, trivial⟩, fun _ _ _ _ _ _ _ _ _ _ _ _ ↦ ⟨trivial, trivial, trivial⟩⟩
  obtain ⟨m, hwhole⟩ := reaches_run hall fun _ _ _ _ ↦ ⟨trivial, trivial, fun _ ↦ trivial⟩
  obtain ⟨rfl, hresult⟩ := halone'.unique hwhole
  exact ⟨hresult.symm, hscope, hown⟩

theorem runsDone_cons (hd : RunsDone tree configs place done final)
    (ha : accepted? tree configs index = some (config, generation)) (hnew : index ∉ done) :
    RunsDone tree configs place (index :: done) (runAlone config final).1 ∧
      (runAlone config final).2 = (runAlone config tree).2 := by
  obtain ⟨hresult, hscope, hown⟩ :=
    h.runAlone_of_agree ha (hd.waiting index config generation ha hnew)
  refine ⟨⟨?_, fun other config' generation' ha' hmem ↦ ?_,
    fun other config' generation' ha' hmem ↦ ?_⟩, hresult⟩
  · exact (hown.mono fun l hl ↦ hl index).trans hd.untouched
  · by_cases hother : other = index
    · subst hother
      obtain ⟨rfl, rfl⟩ := Prod.mk.inj (Option.some.inj (ha.symm.trans ha'))
      exact hscope
    · exact (hown.mono fun l hl ↦ hl index (Ne.symm hother)).trans
        (hd.ended other config' generation' ha' ((List.mem_cons.1 hmem).resolve_left hother))
  · rw [List.mem_cons, not_or] at hmem
    exact (hown.mono fun l hl ↦ hl index (Ne.symm hmem.1)).trans
      (hd.waiting other config' generation' ha' hmem.2)

theorem runsDone_runInOrder {order : List Nat} (hd : RunsDone tree configs place done final)
    (hnodup : order.Nodup) (hnew : ∀ index ∈ order, index ∉ done)
    (haccepted : ∀ index ∈ order, (accepted? tree configs index).isSome = true) :
    RunsDone tree configs place (order.reverse ++ done) (runInOrder configs order final) := by
  induction order generalizing done final with
  | nil => exact hd
  | cons index order ih =>
    obtain ⟨⟨config, generation⟩, ha⟩ :=
      Option.isSome_iff_exists.1 (haccepted index List.mem_cons_self)
    obtain ⟨hnotin, hnodup⟩ := List.nodup_cons.1 hnodup
    have hfirst := (h.runsDone_cons hd ha (hnew index List.mem_cons_self)).1
    have hrest := ih hfirst hnodup
      (fun other hother hmem ↦ by
        rcases List.mem_cons.1 hmem with rfl | hmem
        · exact hnotin hother
        · exact hnew other (List.mem_cons_of_mem index hother) hmem)
      (fun other hother ↦ haccepted other (List.mem_cons_of_mem index hother))
    rw [List.reverse_cons, List.append_assoc, List.singleton_append, runInOrder, List.foldl_cons]
    simp only [(accepted?_eq_some_iff.1 ha).1]
    exact hrest

theorem same_of_runsDone {done' : List Nat} (hd : RunsDone tree configs place done final)
    (hd' : RunsDone tree configs place done' final')
    (hall : ∀ index, (accepted? tree configs index).isSome = true → index ∈ done ∧ index ∈ done') :
    final.Same final' := by
  refine ⟨hd.untouched.workingDirectory.trans hd'.untouched.workingDirectory.symm, fun l ↦ ?_⟩
  by_cases howned : ∃ index, Owns tree configs place index l
  · obtain ⟨index, howns⟩ := howned
    have hin := h.scope_of_owns howns
    obtain ⟨config, generation, ha, -⟩ := howns
    obtain ⟨hmem, hmem'⟩ := hall index (by simp [ha])
    rw [(hd.ended index config generation ha hmem).entry l hin,
      (hd'.ended index config generation ha hmem').entry l hin]
  · rw [hd.untouched.entry l (not_exists.1 howned), hd'.untouched.entry l (not_exists.1 howned)]

end SharesDirectory

theorem Independent.runsDone {left : Nat → Nat}
    (hi : Independent tree configs place system left) (hcomplete : system.IsComplete)
    (hall : ∀ index, (accepted? tree configs index).isSome = true → index ∈ done) :
    RunsDone tree configs place done system.tree := by
  refine ⟨hi.untouched, fun index config generation ha _ ↦ ?_,
    fun index config generation ha hmem ↦ absurd (hall index (by simp [ha])) hmem⟩
  obtain ⟨view, halone, hagree⟩ := hi.running index config generation ha
  rw [hcomplete index, Option.getD_none] at halone
  generalize left index = n at halone
  cases halone with
  | nil => exact hagree
  | cons haction => cases haction

end PairedSource
