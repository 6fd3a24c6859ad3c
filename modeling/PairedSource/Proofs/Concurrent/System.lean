import Mathlib.Logic.Function.Basic
import Mathlib.Tactic.Choose
import PairedSource.Proofs.Concurrent.Ownership

namespace PairedSource

open Invocation Progress

abbrev runAlone (config : RunConfig) (tree : FileTree) : FileTree × Except Error RunReport :=
  ObjectiveC.frontEnd.run ObjectiveC.engine config tree

/-- Runs that work on the same files at the same time: how far each of them has come that has not
reported yet, and what the others reported, in the order of arrival. -/
structure System where
  tree : FileTree
  runs : Nat → Option Progress
  messages : List (Nat × RunOutcome RunReport)

namespace System

variable (tree : FileTree) (configs : List RunConfig)

/-- One of the runs gets an answer to its request, or reports how it ended. -/
inductive Step : System → System → Prop
  | serve {system : System} {index : Nat} {config : RunConfig} {progress : Progress}
      {request : Request} {next : request.Answer → Progress} :
      configs[index]? = some config → system.runs index = some progress →
      action config progress = .ask request next →
      Step system { system with
        tree := (system.tree.serve request).1
        runs := Function.update system.runs index (some (next (system.tree.serve request).2)) }
  | report {system : System} {index : Nat} {config : RunConfig} {progress : Progress}
      {result : Except Error RunReport} :
      configs[index]? = some config → system.runs index = some progress →
      action config progress = .stop result →
      Step system { system with
        runs := Function.update system.runs index none
        messages := system.messages ++ [(index, { input := config.input, result })] }

def start : System where
  tree := tree
  runs index := (accepted? tree configs index).map fun _ ↦ .opening
  messages := []

def IsComplete (system : System) : Prop :=
  ∀ index, system.runs index = none

def early? : Preview × Nat → Option (Nat × RunOutcome RunReport)
  | (⟨input, .error e⟩, index) => some (index, { input, result := .error e })
  | (⟨_, .ok _⟩, _) => none

def early (previews : List Preview) : List (Nat × RunOutcome RunReport) :=
  previews.zipIdx.filterMap early?

def outcomes (system : System) : List (RunOutcome RunReport) :=
  ((early (preview tree configs) ++ system.messages).mergeSort fun a b ↦ a.1 ≤ b.1).map Prod.snd

end System

variable {tree : FileTree} {configs : List RunConfig} {place : Nat → Location}
  {system system' : System} {left : Nat → Nat} {index : Nat} {config : RunConfig}
  {generation : Generation}

variable (tree configs place) in
/-- What holds while the runs go on. Every run could as well be alone with files that differ from
the real ones only where other runs write, and would then end as it does alone from the start. -/
structure Independent (system : System) (left : Nat → Nat) : Prop where
  untouched : FileTree.Agree (fun l ↦ ∀ index, ¬Owns tree configs place index l) system.tree tree
  running : ∀ index config generation,
    accepted? tree configs index = some (config, generation) →
      ∃ view, Alone config (FileTree.Allows tree (Scope tree configs place index)
          (Owns tree configs place index)) view
          ((system.runs index).getD (.finished (runAlone config tree).2)) (left index)
          (runAlone config tree).1 (.finished (runAlone config tree).2) ∧
        FileTree.Agree (Scope tree configs place index) system.tree view
  idle : ∀ index, accepted? tree configs index = none → system.runs index = none

variable (tree configs) in
/-- Every accepted run goes on, or has reported once. -/
structure Answered (system : System) : Prop where
  accepted : ∀ message ∈ system.messages, (accepted? tree configs message.1).isSome = true
  nodup : (system.messages.map Prod.fst).Nodup
  runs : ∀ index, (system.runs index).isSome = true ↔
    (accepted? tree configs index).isSome = true ∧ index ∉ system.messages.map Prod.fst

theorem answered_start (tree : FileTree) (configs : List RunConfig) :
    Answered tree configs (System.start tree configs) := by
  refine ⟨fun message hmessage ↦ ?_, List.nodup_nil, fun index ↦ ?_⟩
  · cases hmessage
  · simp [System.start]

theorem Answered.step (hr : Answered tree configs system)
    (hstep : System.Step configs system system') : Answered tree configs system' := by
  cases hstep with
  | @serve index config progress request next hconfig hrun haction =>
    refine ⟨hr.accepted, hr.nodup, fun other ↦ ?_⟩
    by_cases hother : other = index
    · subst hother
      have hruns := hr.runs other
      rw [hrun] at hruns
      simpa using hruns
    · simpa [Function.update_of_ne hother] using hr.runs other
  | @report index config progress result hconfig hrun haction =>
    obtain ⟨haccepted, hnew⟩ := (hr.runs index).1 (by rw [hrun]; rfl)
    refine ⟨fun message hmessage ↦ ?_, ?_, fun other ↦ ?_⟩
    · rcases List.mem_append.1 hmessage with hmessage | hmessage
      · exact hr.accepted message hmessage
      · rwa [List.mem_singleton.1 hmessage]
    · rw [List.map_append, List.nodup_append_comm]
      exact List.nodup_cons.2 ⟨hnew, hr.nodup⟩
    · by_cases hother : other = index
      · simp [hother]
      · simpa [Function.update_of_ne hother, hother] using hr.runs other

variable (tree configs) in
structure Reported (system : System) : Prop extends Answered tree configs system where
  result : ∀ message ∈ system.messages, ∀ config generation,
    accepted? tree configs message.1 = some (config, generation) →
      message.2 = { input := config.input, result := (runAlone config tree).2 }

theorem reported_start (tree : FileTree) (configs : List RunConfig) :
    Reported tree configs (System.start tree configs) :=
  ⟨answered_start tree configs, fun _ hmessage ↦ nomatch hmessage⟩

section Reporting

variable {progress : Progress} {result : Except Error RunReport}

theorem eq_finished_of_stop (h : action config progress = .stop result) :
    progress = .finished result := by
  cases progress with
  | finished other =>
    cases h
    rfl
  | _ => cases h

variable (hi : Independent tree configs place system left)
  (hconfig : configs[index]? = some config) (hrun : system.runs index = some progress)

include hi hconfig hrun

theorem exists_accepted_of_runs :
    ∃ generation, accepted? tree configs index = some (config, generation) := by
  cases ha : accepted? tree configs index with
  | none =>
    rw [hi.idle index ha] at hrun
    cases hrun
  | some found =>
    obtain ⟨config', generation⟩ := found
    obtain rfl := Option.some.inj (hconfig.symm.trans (accepted?_eq_some_iff.1 ha).1)
    exact ⟨generation, rfl⟩

variable (haction : action config progress = .stop result)

include haction

theorem result_of_stop : result = (runAlone config tree).2 := by
  obtain ⟨generation, ha⟩ := exists_accepted_of_runs hi hconfig hrun
  obtain ⟨view, halone, -⟩ := hi.running index config generation ha
  obtain rfl := eq_finished_of_stop haction
  rw [hrun, Option.getD_some] at halone
  generalize left index = n at halone
  cases halone with
  | nil => rfl
  | cons haction' => cases haction'

theorem independent_report :
    Independent tree configs place { system with
        runs := Function.update system.runs index none
        messages := system.messages ++ [(index, { input := config.input, result })] } left := by
  refine ⟨hi.untouched, fun other config' generation' ha' ↦ ?_, fun other hnone ↦ ?_⟩
  · obtain ⟨view, halone, hagree⟩ := hi.running other config' generation' ha'
    refine ⟨view, ?_, hagree⟩
    by_cases hother : other = index
    · subst hother
      obtain ⟨generation, ha⟩ := exists_accepted_of_runs hi hconfig hrun
      obtain ⟨rfl, rfl⟩ := Prod.mk.inj (Option.some.inj (ha.symm.trans ha'))
      obtain rfl := eq_finished_of_stop haction
      rw [hrun, Option.getD_some, result_of_stop hi hconfig hrun haction] at halone
      simpa using halone
    · simpa [Function.update_of_ne hother] using halone
  · by_cases hother : other = index
    · simp [hother]
    · simpa [Function.update_of_ne hother] using hi.idle other hnone

end Reporting

/-- A request of one run leaves the views of all others as they are. -/
theorem independent_serve {progress : Progress} {request : Request}
    {next : request.Answer → Progress} (hi : Independent tree configs place system left)
    (hconfig : configs[index]? = some config) (hrun : system.runs index = some progress)
    (haction : action config progress = .ask request next) :
    ∃ n, left index = n + 1 ∧ Independent tree configs place { system with
        tree := (system.tree.serve request).1
        runs := Function.update system.runs index (some (next (system.tree.serve request).2)) }
      (Function.update left index n) := by
  obtain ⟨generation, ha⟩ := exists_accepted_of_runs hi hconfig hrun
  obtain ⟨view, halone, hagree⟩ := hi.running index config generation ha
  rw [hrun, Option.getD_some] at halone
  cases hleft : left index with
  | zero =>
    rw [hleft] at halone
    cases halone
    cases haction
  | succ n =>
    rw [hleft] at halone
    cases halone with
    | cons haction' hallowed hrest =>
      obtain ⟨rfl, hnext⟩ := Action.ask.inj (haction.symm.trans haction')
      obtain rfl := eq_of_heq hnext
      have hallowed' := hi.untouched.symm.allows hallowed
      obtain ⟨hanswer, hserved⟩ := hagree.serve hallowed'
      have hkept := FileTree.agree_serve hallowed'
      refine ⟨n, rfl, ?_, fun other config' generation' ha' ↦ ?_, fun other hnone ↦ ?_⟩
      · exact (hkept.mono fun l hl ↦ hl index).trans hi.untouched
      · by_cases hother : other = index
        · subst hother
          obtain ⟨rfl, rfl⟩ := Prod.mk.inj (Option.some.inj (ha.symm.trans ha'))
          refine ⟨(view.serve request).1, ?_, hserved⟩
          simpa [hanswer] using hrest
        · obtain ⟨view', halone', hagree'⟩ := hi.running other config' generation' ha'
          refine ⟨view', ?_, (hkept.mono fun l hl ↦ hl index (Ne.symm hother)).trans hagree'⟩
          simpa [Function.update_of_ne hother] using halone'
      · have hne : other ≠ index := by
          intro heq
          subst heq
          rw [ha] at hnone
          cases hnone
        simpa [Function.update_of_ne hne] using hi.idle other hnone

theorem SharesDirectory.independent_start (h : SharesDirectory tree configs place) :
    ∃ left, Independent tree configs place (System.start tree configs) left := by
  have hall : ∀ index, ∃ n, ∀ config generation,
      accepted? tree configs index = some (config, generation) →
        Alone config (FileTree.Allows tree (Scope tree configs place index)
          (Owns tree configs place index)) tree .opening n
          (runAlone config tree).1 (.finished (runAlone config tree).2) := by
    intro index
    cases ha : accepted? tree configs index with
    | none => exact ⟨0, fun _ _ hsome ↦ nomatch hsome⟩
    | some found =>
      obtain ⟨n, hn⟩ := h.reaches ha
      refine ⟨n, fun config generation hsome ↦ ?_⟩
      obtain ⟨rfl, rfl⟩ := Prod.mk.inj (Option.some.inj hsome)
      exact hn
  choose left hleft using hall
  refine ⟨left, .refl _ tree, fun index config generation ha ↦ ⟨tree, ?_, .refl _ tree⟩, ?_⟩
  · simpa [System.start, ha] using hleft index config generation ha
  · intro index ha
    simp [System.start, ha]

end PairedSource
