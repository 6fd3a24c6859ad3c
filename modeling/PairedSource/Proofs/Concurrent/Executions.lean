import Mathlib.Algebra.Order.BigOperators.Group.Finset
import Mathlib.Logic.Relation
import PairedSource.Proofs.Concurrent.System

namespace PairedSource

open Invocation Progress

variable {tree : FileTree} {configs : List RunConfig} {place : Nat → Location}
  {system system' : System} {left : Nat → Nat} {index : Nat} {config : RunConfig}
  {generation : Generation}

def remainingSteps (configs : List RunConfig) (system : System) (left : Nat → Nat) : Nat :=
  ∑ index ∈ Finset.range configs.length, (left index + (system.runs index).isSome.toNat)

theorem remainingSteps_lt {system' : System} {left' : Nat → Nat} (hlt : index < configs.length)
    (hother : ∀ other ≠ index, left' other = left other ∧ system'.runs other = system.runs other)
    (hindex : left' index + (system'.runs index).isSome.toNat <
      left index + (system.runs index).isSome.toNat) :
    remainingSteps configs system' left' < remainingSteps configs system left := by
  refine Finset.sum_lt_sum (fun other _ ↦ ?_) ⟨index, Finset.mem_range.2 hlt, hindex⟩
  by_cases hne : other = index
  · exact hne ▸ hindex.le
  · rw [(hother other hne).1, (hother other hne).2]

section Steps

variable (hi : Independent tree configs place system left) (hr : Reported tree configs system)

include hi hr

/-- Every step keeps the runs independent and brings the end nearer. -/
theorem System.Step.independent (hstep : System.Step configs system system') :
    ∃ left', Independent tree configs place system' left' ∧ Reported tree configs system' ∧
      remainingSteps configs system' left' < remainingSteps configs system left := by
  have hanswered := hr.toAnswered.step hstep
  cases hstep with
  | @serve index config progress request next hconfig hrun haction =>
    obtain ⟨n, hleft, hi'⟩ := independent_serve hi hconfig hrun haction
    have hlt := (List.getElem?_eq_some_iff.1 hconfig).1
    refine ⟨_, hi', ⟨hanswered, hr.result⟩, remainingSteps_lt hlt (fun other hne ↦ ?_) ?_⟩
    · exact ⟨Function.update_of_ne hne _ _, Function.update_of_ne hne _ _⟩
    · simp [hleft, hrun]
  | @report index config progress result hconfig hrun haction =>
    have hlt := (List.getElem?_eq_some_iff.1 hconfig).1
    refine ⟨left, independent_report hi hconfig hrun haction,
      ⟨hanswered, fun message hmessage config' generation' ha ↦ ?_⟩,
      remainingSteps_lt hlt (fun other hne ↦ ?_) ?_⟩
    · rcases List.mem_append.1 hmessage with hmessage | hmessage
      · exact hr.result message hmessage config' generation' ha
      · obtain rfl := List.mem_singleton.1 hmessage
        obtain rfl := Option.some.inj (hconfig.symm.trans (accepted?_eq_some_iff.1 ha).1)
        rw [result_of_stop hi hconfig hrun haction]
    · exact ⟨rfl, Function.update_of_ne hne _ _⟩
    · simp [hrun]

omit hr in
theorem System.exists_step (hrun : ¬system.IsComplete) :
    ∃ system', System.Step configs system system' := by
  simp only [System.IsComplete, not_forall] at hrun
  obtain ⟨index, hrun⟩ := hrun
  obtain ⟨progress, hrun⟩ := Option.ne_none_iff_exists'.1 hrun
  cases ha : accepted? tree configs index with
  | none =>
    rw [hi.idle index ha] at hrun
    cases hrun
  | some found =>
    obtain ⟨config, generation⟩ := found
    have hconfig := (accepted?_eq_some_iff.1 ha).1
    cases haction : action config progress with
    | stop result => exact ⟨_, .report hconfig hrun haction⟩
    | ask request next => exact ⟨_, .serve hconfig hrun haction⟩

end Steps

section Executions

open Relation

variable (h : SharesDirectory tree configs place)

include h

/-- No execution goes on forever. -/
theorem SharesDirectory.acc_start :
    Acc (fun after before ↦ System.Step configs before after) (System.start tree configs) := by
  have hall : ∀ n system left, Independent tree configs place system left →
      Reported tree configs system → remainingSteps configs system left < n →
        Acc (fun after before ↦ System.Step configs before after) system := by
    intro n
    induction n with
    | zero => exact fun system left _ _ hlt ↦ absurd hlt (Nat.not_lt_zero _)
    | succ n ih =>
      intro system left hi hr hlt
      refine ⟨_, fun system' hstep ↦ ?_⟩
      obtain ⟨left', hi', hr', hless⟩ := hstep.independent hi hr
      exact ih system' left' hi' hr' (by omega)
  obtain ⟨left, hi⟩ := h.independent_start
  exact hall _ _ left hi (reported_start tree configs) (Nat.lt_succ_self _)

theorem SharesDirectory.independent_of_reachable
    (hreach : ReflTransGen (System.Step configs) (System.start tree configs) system) :
    ∃ left, Independent tree configs place system left ∧ Reported tree configs system := by
  induction hreach with
  | refl =>
    obtain ⟨left, hi⟩ := h.independent_start
    exact ⟨left, hi, reported_start tree configs⟩
  | tail _ hstep ih =>
    obtain ⟨left, hi, hr⟩ := ih
    obtain ⟨left', hi', hr', -⟩ := hstep.independent hi hr
    exact ⟨left', hi', hr'⟩

theorem SharesDirectory.exists_isComplete :
    ∃ system, ReflTransGen (System.Step configs) (System.start tree configs) system ∧
      system.IsComplete := by
  have hfrom : ∀ system,
      Acc (fun after before ↦ System.Step configs before after) system →
      ReflTransGen (System.Step configs) (System.start tree configs) system →
      ∃ system, ReflTransGen (System.Step configs) (System.start tree configs) system ∧
        system.IsComplete := by
    intro system hacc
    induction hacc with
    | intro system _ ih =>
      intro hreach
      by_cases hcomplete : system.IsComplete
      · exact ⟨system, hreach, hcomplete⟩
      · obtain ⟨left, hi, -⟩ := h.independent_of_reachable hreach
        obtain ⟨system', hnext⟩ := System.exists_step hi hcomplete
        exact ih system' hnext (hreach.tail hnext)
  exact hfrom _ h.acc_start .refl

end Executions

end PairedSource
