import PairedSource.Proofs.Concurrent.Misled
import PairedSource.Proofs.Concurrent.Outcomes

namespace PairedSource

open FileTree Invocation Progress Relation
open ObjectiveC (IsGenerated)

variable {tree now : FileTree} {configs : List RunConfig} {place : Nat → Location}
  {system system' : System} {index : Nat} {config : RunConfig} {generation : Generation}
  {location : Location} {outcome : RunOutcome RunReport}

variable (configs) in
def System.Writes (system : System) (index : Nat) (location : Location) : Prop :=
  ∃ config progress path content next, configs[index]? = some config ∧
    system.runs index = some progress ∧
    action config progress = .ask (.place path content) next ∧
    ∃ directory name, IsSlot system.tree path directory name ∧ location = directory ++ [name]

variable (tree configs) in
/-- What holds while the runs go on, whatever they read: what is new is generated, and every run
writes only what was generated for it from the first files. -/
structure Confined (system : System) : Prop where
  overlays : Overlays IsGenerated system.tree tree
  bound : ∀ index progress, system.runs index = some progress → ∃ config generation,
    accepted? tree configs index = some (config, generation) ∧
      Bound tree system.tree config generation progress

theorem confined_start (tree : FileTree) (configs : List RunConfig) :
    Confined tree configs (System.start tree configs) := by
  refine ⟨.refl _ tree, fun index progress hrun ↦ ?_⟩
  obtain ⟨⟨config, generation⟩, ha, rfl⟩ := Option.map_eq_some_iff.1 hrun
  have hallowed : AllowsLoading tree config fun _ ↦ True :=
    ⟨⟨trivial, trivial, trivial⟩, fun _ _ _ _ _ _ _ _ _ _ _ _ ↦ ⟨trivial, trivial, trivial⟩⟩
  have hheads := reaches_emit hallowed
  rw [(generate_of_accepted? ha).1] at hheads
  exact ⟨config, generation, ha, .loading .opening hheads⟩

namespace HasPlaces

variable (h : HasPlaces tree configs place)

include h

theorem fits (ha : accepted? tree configs index = some (config, generation))
    (hover : Overlays IsGenerated now tree) : Fits now config generation := by
  intro artifact hmem
  obtain ⟨units, hunits⟩ := exists_units_of_generate (generate_of_accepted? ha).1
  exact ⟨ObjectiveC.isGenerated_content hunits hmem, (fileName_of_accepted? ha hmem).1, place index,
    hover.symm.isSlot (h.isSlot_of_accepted? ha hmem)⟩

theorem confined_step (hc : Confined tree configs system)
    (hstep : System.Step configs system system') : Confined tree configs system' := by
  cases hstep with
  | @serve index config progress request next hconfig hrun haction =>
    obtain ⟨config', generation, ha, hbound⟩ := hc.bound index progress hrun
    obtain rfl := Option.some.inj (hconfig.symm.trans (accepted?_eq_some_iff.1 ha).1)
    obtain ⟨hover, hkeeps, hnext⟩ :=
      hbound.next_of_ask hc.overlays (h.fits ha hc.overlays) haction
    refine ⟨hover, fun other progress' hrun' ↦ ?_⟩
    by_cases hother : other = index
    · subst hother
      obtain rfl : next (system.tree.serve request).2 = progress' := by simpa using hrun'
      exact ⟨config, generation, ha, hnext⟩
    · obtain ⟨config', generation', ha', hbound'⟩ :=
        hc.bound other progress' (by simpa [Function.update_of_ne hother] using hrun')
      exact ⟨config', generation', ha', hbound'.keeps hkeeps⟩
  | @report index config progress result hconfig hrun haction =>
    refine ⟨hc.overlays, fun other progress' hrun' ↦ ?_⟩
    by_cases hother : other = index
    · simp [hother] at hrun'
    · exact hc.bound other progress' (by simpa [Function.update_of_ne hother] using hrun')

theorem owns_of_writes (hc : Confined tree configs system)
    (hwrites : system.Writes configs index location) :
    Owns tree configs place index location := by
  obtain ⟨config, progress, path, content, next, hconfig, hrun, haction, directory, name, hslot,
    rfl⟩ := hwrites
  obtain ⟨config', generation, ha, hbound⟩ := hc.bound index progress hrun
  obtain rfl := Option.some.inj (hconfig.symm.trans (accepted?_eq_some_iff.1 ha).1)
  cases hbound with
  | loading hfaithful => cases hfaithful <;> cases haction
  | misled hmisled => cases hmisled <;> cases haction
  | @writing _ writing hwriting hall =>
    have hmem := hall _ List.mem_cons_self
    have hown := hc.overlays.symm.isSlot (h.isSlot_of_accepted? ha hmem)
    cases progress with
    | placing writing =>
      obtain rfl := Option.some.inj hwriting
      cases haction
      rw [hslot.unique hown, hslot.unique_name hown]
      exact ⟨config, generation, ha, writing.artifact, hmem, rfl⟩
    | comparing writing => cases haction
    | preparing writing => cases haction
    | _ => cases hwriting
  | finished result => cases haction

end HasPlaces

theorem HasPlaces.confined_of_reachable (h : HasPlaces tree configs place)
    (hreach : ReflTransGen (System.Step configs) (System.start tree configs) system) :
    Confined tree configs system ∧ Answered tree configs system := by
  induction hreach with
  | refl => exact ⟨confined_start tree configs, answered_start tree configs⟩
  | tail _ hstep ih => exact ⟨h.confined_step ih.1 hstep, ih.2.step hstep⟩

theorem Answered.getElem?_outcomes (hr : Answered tree configs system)
    (hcomplete : system.IsComplete)
    (hmem : (index, outcome) ∈ System.early (preview tree configs)) :
    (system.outcomes tree configs)[index]? = some outcome :=
  List.getElem?_map_snd_mergeSort (hr.perm_range hcomplete) (List.mem_append_left _ hmem)

end PairedSource
