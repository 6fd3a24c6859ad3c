import PairedSource.Proofs.Concurrent.Executions

namespace PairedSource

open Invocation Progress

variable {tree : FileTree} {configs : List RunConfig} {system : System} {index : Nat}
  {config : RunConfig} {checked : Preview} {outcome : RunOutcome RunReport}

variable (tree configs) in
/-- What comes of each configuration when it is the only one that is run. -/
def expected : List (RunOutcome RunReport) :=
  (configs.zip (preview tree configs)).map fun (config, checked) ↦ (runOne tree config checked).2

theorem getElem?_preview (tree : FileTree) (hconfig : configs[index]? = some config) :
    ∃ checked, (preview tree configs)[index]? = some checked ∧ checked.input = config.input := by
  have hdraft := getElem?_drafts hconfig tree
  rw [preview_eq]
  by_cases hshared : IsShared (drafts tree configs) index
  · obtain ⟨_, draft, _, _, _, _, _, hdraft', -, -, hafter, -⟩ :=
      getElem?_rejectShared_of_isShared hshared
    refine ⟨_, hafter, ?_⟩
    obtain ⟨-, rfl⟩ := Prod.mk.inj (Option.some.inj (hdraft.symm.trans hdraft'))
    rfl
  · rw [getElem?_rejectShared_of_not_isShared hshared, hdraft]
    exact ⟨_, rfl, rfl⟩

theorem length_preview (tree : FileTree) (configs : List RunConfig) :
    (preview tree configs).length = configs.length := by
  rw [preview_eq, length_rejectShared, drafts, List.length_map]

theorem getElem?_expected_eq_some_iff : (expected tree configs)[index]? = some outcome ↔
    ∃ config checked, configs[index]? = some config ∧
      (preview tree configs)[index]? = some checked ∧
      (runOne tree config checked).2 = outcome := by
  simp only [expected, List.getElem?_map, Option.map_eq_some_iff, List.getElem?_zip_eq_some]
  constructor
  · intro h
    obtain ⟨⟨config, checked⟩, ⟨hconfig, hchecked⟩, h⟩ := h
    exact ⟨config, checked, hconfig, hchecked, h⟩
  · intro h
    obtain ⟨config, checked, hconfig, hchecked, h⟩ := h
    exact ⟨⟨config, checked⟩, ⟨hconfig, hchecked⟩, h⟩

theorem runOne_error {e : Error} (h : checked.result = .error e) :
    (runOne tree config checked).2 = { input := checked.input, result := .error e } := by
  simp only [runOne, h]

theorem runOne_ok {generation : Generation} (h : checked.result = .ok generation) :
    runOne tree config checked = ((runAlone config tree).1,
      { input := config.input, result := (runAlone config tree).2 }) := by
  simp only [runOne, h, runAlone]

theorem map_input_expected (tree : FileTree) (configs : List RunConfig) :
    (expected tree configs).map RunOutcome.input = configs.map RunConfig.input := by
  refine List.ext_getElem? fun index ↦ ?_
  rw [List.getElem?_map, List.getElem?_map]
  cases hconfig : configs[index]? with
  | none =>
    have hnone : (expected tree configs)[index]? = none := by
      rw [List.getElem?_eq_none_iff] at hconfig ⊢
      simpa [expected, length_preview] using hconfig
    rw [hnone]
    rfl
  | some config =>
    obtain ⟨checked, hchecked, hinput⟩ := getElem?_preview tree hconfig
    rw [getElem?_expected_eq_some_iff.2 ⟨config, checked, hconfig, hchecked, rfl⟩]
    cases hresult : checked.result with
    | error e => simp [runOne_error hresult, hinput]
    | ok generation => simp [runOne_ok hresult]

theorem early?_eq_some_iff {run : Preview × Nat} {entry : Nat × RunOutcome RunReport} :
    System.early? run = some entry ↔ entry.1 = run.2 ∧ ∃ e, run.1.result = .error e ∧
      entry.2 = { input := run.1.input, result := .error e } := by
  obtain ⟨⟨input, result⟩, index⟩ := run
  cases result with
  | ok generation => simp [System.early?]
  | error e => simp [System.early?, Prod.ext_iff, eq_comm]

theorem mem_early_iff : (index, outcome) ∈ System.early (preview tree configs) ↔
    ∃ checked e, (preview tree configs)[index]? = some checked ∧ checked.result = .error e ∧
      outcome = { input := checked.input, result := .error e } := by
  simp only [System.early, List.mem_filterMap, Prod.exists, List.mem_zipIdx_iff_getElem?,
    early?_eq_some_iff]
  constructor
  · intro h
    obtain ⟨checked, other, hchecked, rfl, e, hresult, rfl⟩ := h
    exact ⟨checked, e, hchecked, hresult, rfl⟩
  · intro h
    obtain ⟨checked, e, hchecked, hresult, rfl⟩ := h
    exact ⟨checked, index, hchecked, rfl, e, hresult, rfl⟩

theorem nodup_early (previews : List Preview) :
    ((System.early previews).map Prod.fst).Nodup := by
  rw [System.early, List.Nodup, List.pairwise_map, List.pairwise_filterMap]
  refine (List.pairwise_zipIdx previews).imp fun {a b} hab x hx y hy heq ↦ ?_
  have ha := (early?_eq_some_iff.1 hx).1
  have hb := (early?_eq_some_iff.1 hy).1
  omega

section Complete

variable (hr : Answered tree configs system) (hcomplete : system.IsComplete)

include hr hcomplete

theorem Answered.mem_map_fst_iff :
    index ∈ system.messages.map Prod.fst ↔ (accepted? tree configs index).isSome = true := by
  constructor
  · intro h
    obtain ⟨message, hmessage, rfl⟩ := List.mem_map.1 h
    exact hr.accepted message hmessage
  · intro h
    by_contra hnot
    have hrun := (hr.runs index).2 ⟨h, hnot⟩
    rw [hcomplete index] at hrun
    cases hrun

/-- In the end every position has one entry: a failure of its preview, or the message of its run. -/
theorem Answered.perm_range :
    ((System.early (preview tree configs) ++ system.messages).map Prod.fst).Perm
      (List.range configs.length) := by
  have hearly : ∀ {index}, index ∈ (System.early (preview tree configs)).map Prod.fst →
      index < configs.length ∧ accepted? tree configs index = none := by
    intro index h
    obtain ⟨⟨index, outcome⟩, hmem, rfl⟩ := List.mem_map.1 h
    obtain ⟨checked, e, hchecked, hresult, -⟩ := mem_early_iff.1 hmem
    refine ⟨length_preview tree configs ▸ (List.getElem?_eq_some_iff.1 hchecked).1, ?_⟩
    cases ha : accepted? tree configs index with
    | none => rfl
    | some found =>
      have hpreview := (accepted?_eq_some_iff.1 ha).2
      rw [hchecked, Option.map_some, hresult] at hpreview
      cases hpreview
  rw [List.map_append, List.perm_ext_iff_of_nodup _ List.nodup_range]
  · intro index
    rw [List.mem_append, hr.mem_map_fst_iff hcomplete, List.mem_range]
    constructor
    · intro h
      rcases h with h | h
      · exact (hearly h).1
      · obtain ⟨found, ha⟩ := Option.isSome_iff_exists.1 h
        exact (List.getElem?_eq_some_iff.1 (accepted?_eq_some_iff.1 ha).1).1
    · intro hlt
      obtain ⟨checked, hchecked, -⟩ := getElem?_preview tree (List.getElem?_eq_getElem hlt)
      cases hresult : checked.result with
      | error e =>
        exact .inl (List.mem_map_of_mem (mem_early_iff.2 ⟨checked, e, hchecked, hresult, rfl⟩))
      | ok generation =>
        have ha := accepted?_eq_some_iff.2 ⟨List.getElem?_eq_getElem hlt, by
          rw [hchecked, Option.map_some, hresult]⟩
        exact .inr (by rw [ha]; rfl)
  · refine List.nodup_append.2 ⟨nodup_early _, hr.nodup, ?_⟩
    rintro index h _ hmessage rfl
    rw [hr.mem_map_fst_iff hcomplete, (hearly h).2] at hmessage
    cases hmessage

end Complete

section Alone

variable (hr : Reported tree configs system) (hcomplete : system.IsComplete)

include hr hcomplete

theorem mem_messages_iff : (index, outcome) ∈ system.messages ↔
    ∃ config generation, accepted? tree configs index = some (config, generation) ∧
      outcome = { input := config.input, result := (runAlone config tree).2 } := by
  constructor
  · intro h
    obtain ⟨⟨config, generation⟩, ha⟩ := Option.isSome_iff_exists.1 (hr.accepted _ h)
    exact ⟨config, generation, ha, hr.result _ h config generation ha⟩
  · intro h
    obtain ⟨config, generation, ha, rfl⟩ := h
    obtain ⟨⟨other, outcome⟩, hmem, rfl⟩ :=
      List.mem_map.1 ((hr.mem_map_fst_iff hcomplete).2 (by rw [ha]; rfl))
    rwa [← hr.result _ hmem config generation ha]

theorem mem_early_append_messages_iff :
    (index, outcome) ∈ System.early (preview tree configs) ++ system.messages ↔
      (expected tree configs)[index]? = some outcome := by
  rw [List.mem_append, mem_early_iff, mem_messages_iff hr hcomplete,
    getElem?_expected_eq_some_iff]
  constructor
  · intro h
    rcases h with ⟨checked, e, hchecked, hresult, rfl⟩ | ⟨config, generation, ha, rfl⟩
    · have hlt := (List.getElem?_eq_some_iff.1 hchecked).1
      rw [length_preview] at hlt
      exact ⟨configs[index], checked, List.getElem?_eq_getElem hlt, hchecked,
        runOne_error hresult⟩
    · obtain ⟨hconfig, hpreview⟩ := accepted?_eq_some_iff.1 ha
      obtain ⟨checked, hchecked, hresult⟩ := Option.map_eq_some_iff.1 hpreview
      exact ⟨config, checked, hconfig, hchecked, by rw [runOne_ok hresult]⟩
  · intro h
    obtain ⟨config, checked, hconfig, hchecked, rfl⟩ := h
    cases hresult : checked.result with
    | error e => exact .inl ⟨checked, e, hchecked, hresult, runOne_error hresult⟩
    | ok generation =>
      refine .inr ⟨config, generation, accepted?_eq_some_iff.2 ⟨hconfig, ?_⟩, ?_⟩
      · rw [hchecked, Option.map_some, hresult]
      · rw [runOne_ok hresult]

/-- Whatever the order of arrival, every input gets its own outcome, once and in its place. -/
theorem outcomes_eq_expected : system.outcomes tree configs = expected tree configs := by
  have hperm := hr.perm_range hcomplete
  refine List.ext_getElem? fun index ↦ ?_
  cases hexpected : (expected tree configs)[index]? with
  | some outcome =>
    exact List.getElem?_map_snd_mergeSort hperm
      ((mem_early_append_messages_iff hr hcomplete).2 hexpected)
  | none =>
    have hlength := hperm.length_eq
    rw [List.getElem?_eq_none_iff] at hexpected ⊢
    simp only [expected, List.length_map, List.length_zip, length_preview, Nat.min_self]
      at hexpected
    rw [List.length_map, List.length_range] at hlength
    rwa [System.outcomes, List.length_map, List.length_mergeSort, hlength]

end Alone

end PairedSource
