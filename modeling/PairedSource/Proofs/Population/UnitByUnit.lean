import PairedSource.ObjectiveC
import PairedSource.Proofs.Population.Calls

namespace PairedSource.Population

variable {μ : Type} {naming : NamingPolicy} {config : RunConfig} {renderer : Renderer μ}
  {models : List (UnitModel μ)} {units : List SourceUnit} {fault : Fault}

theorem populate_append (before after : List (UnitModel μ)) :
    populate naming renderer config (before ++ after) = do
      let first ← populate naming renderer config before
      let second ← populate naming renderer config after
      return first ++ second := by
  simp only [populate]
  cases (checkPrefix naming config).mapError Fault.error with
  | error fault => rfl
  | ok _ =>
    simp only [Except.ok_bind]
    exact List.mapM_append

theorem populate_eq_ok_iff : populate naming renderer config models = .ok units ↔
    naming.checkPrefix config.namePrefix = .ok ⟨⟩ ∧
      List.Forall₂ (fun model ↦ IsFilled naming config model renderer) models units := by
  simp only [populate, checkPrefix, Except.bind_eq_ok_iff, Except.mapError_eq_ok_iff,
    Except.mapM_eq_ok_iff, populateUnit_eq_ok_iff]
  exact Unique.exists_iff

theorem exists_populate_eq_ok_iff : (∃ units, populate naming renderer config models = .ok units) ↔
    naming.checkPrefix config.namePrefix = .ok ⟨⟩ ∧
      ∀ model ∈ models, Nameable naming config model ∧
        ∀ fault, ¬CallFault naming config model renderer fault := by
  simp only [populate, checkPrefix, Except.bind_eq_ok_iff, Except.mapError_eq_ok_iff]
  rw [exists_comm]
  simp only [exists_and_left, Except.exists_mapM_eq_ok_iff, exists_populateUnit_eq_ok_iff]
  exact Unique.exists_iff

theorem populate_eq_error_iff : populate naming renderer config models = .error fault ↔
    (∃ reason, naming.checkPrefix config.namePrefix = .error reason ∧
      fault = .error (.invalidPrefix config.namePrefix reason)) ∨
    ∃ before model after filled, models = before ++ model :: after ∧
      populate naming renderer config before = .ok filled ∧
      UnitFault naming config model renderer fault := by
  rw [populate, Except.bind_eq_error_iff]
  refine or_congr ?_ ?_
  · simp only [checkPrefix, Except.mapError_eq_error_iff]
    constructor
    · rintro ⟨_, ⟨reason, hreason, rfl⟩, rfl⟩
      exact ⟨reason, hreason, rfl⟩
    · rintro ⟨reason, hreason, rfl⟩
      exact ⟨_, ⟨reason, hreason, rfl⟩, rfl⟩
  · constructor
    · intro h
      obtain ⟨_, hprefix, h⟩ := h
      obtain ⟨before, model, after, hmodels, ⟨filled, hbefore⟩, h⟩ := Except.mapM_eq_error_iff.1 h
      refine ⟨before, model, after, filled, hmodels, ?_, populateUnit_eq_error_iff.1 h⟩
      rw [populate, hprefix, Except.ok_bind, hbefore]
    · intro h
      obtain ⟨before, model, after, filled, hmodels, hbefore, h⟩ := h
      rw [populate, Except.bind_eq_ok_iff] at hbefore
      obtain ⟨_, hprefix, hbefore⟩ := hbefore
      refine ⟨_, hprefix, Except.mapM_eq_error_iff.2 ?_⟩
      exact ⟨before, model, after, hmodels, ⟨filled, hbefore⟩, populateUnit_eq_error_iff.2 h⟩

/-- Units are filled one after another, each by the calls for its own context, until the first that
cannot be named or in which a call fails. -/
theorem populate_unit_by_unit (naming : NamingPolicy) (renderer : Renderer μ)
    (config : RunConfig) :
    (∀ before after, populate naming renderer config (before ++ after) = do
      let first ← populate naming renderer config before
      let second ← populate naming renderer config after
      return first ++ second) ∧
    (∀ model : UnitModel μ, Nameable naming config model ↔
      ∀ e, ¬NamingFault naming config model e) ∧
    (∀ models, (∃ units, populate naming renderer config models = .ok units) ↔
      naming.checkPrefix config.namePrefix = .ok ⟨⟩ ∧
        ∀ model ∈ models, Nameable naming config model ∧
          ∀ fault, ¬CallFault naming config model renderer fault) ∧
    (∀ models units, populate naming renderer config models = .ok units ↔
      naming.checkPrefix config.namePrefix = .ok ⟨⟩ ∧
        List.Forall₂ (fun model ↦ IsFilled naming config model renderer) models units) ∧
    ∀ models fault, populate naming renderer config models = .error fault ↔
      (∃ reason, naming.checkPrefix config.namePrefix = .error reason ∧
        fault = .error (.invalidPrefix config.namePrefix reason)) ∨
      ∃ before model after filled, models = before ++ model :: after ∧
        populate naming renderer config before = .ok filled ∧
        UnitFault naming config model renderer fault :=
  ⟨populate_append, fun _ ↦ nameable_iff, fun _ ↦ exists_populate_eq_ok_iff,
    fun _ _ ↦ populate_eq_ok_iff, fun _ _ ↦ populate_eq_error_iff⟩

def brand : UnitModel Entry where
  key := "brand"
  members := [⟨"sky", .color ⟨0, 128, 255, 255⟩⟩]

def tints : UnitModel Entry where
  key := "tints"
  members := [⟨"pale red", .color ⟨255, 200, 200, 255⟩⟩, ⟨"title", .identifier "Tints"⟩,
    ⟨"Pale-Red", .color ⟨255, 220, 220, 255⟩⟩]

def tintsConfig : RunConfig where
  input := ⟨"tints.toml"⟩

theorem populate_unit_by_unit_tints :
    populate ObjectiveC.naming ObjectiveC.renderer tintsConfig [brand, tints] =
      .error (.error (.duplicateMemberName "tints" "paleRed" "pale red" "Pale-Red")) := by
  obtain ⟨-, -, -, -, hfails⟩ :=
    populate_unit_by_unit ObjectiveC.naming ObjectiveC.renderer tintsConfig
  have hbrand : (populate ObjectiveC.naming ObjectiveC.renderer tintsConfig
      [brand]).toOption.isSome = true := by decide
  obtain ⟨filled, hfilled⟩ := Option.isSome_iff_exists.1 hbrand
  have hname : ObjectiveC.naming.typeName tints.key tintsConfig.namePrefix = .ok "Tints" := by
    decide +kernel
  let named : List (NamedMember Entry) :=
    [{ key := "pale red", value := .color ⟨255, 200, 200, 255⟩, name := "paleRed" },
      { key := "title", value := .identifier "Tints", name := "title" }]
  have hnamed : IsNamed ObjectiveC.naming named := ⟨by decide +kernel, by decide⟩
  have hmembers : tints.members = named.map NamedMember.toMember ++
      [⟨"Pale-Red", .color ⟨255, 220, 220, 255⟩⟩] := rfl
  have hrepeated : ObjectiveC.naming.memberName "Pale-Red" = .ok "paleRed" := by decide +kernel
  have hfault := NamingFault.member hname hmembers rfl hnamed
    (.repeated List.mem_cons_self hrepeated)
  exact (hfails _ _).2 (.inr
    ⟨[brand], tints, [], filled, rfl, Except.toOption_eq_some_iff.1 hfilled, .naming hfault⟩)

end PairedSource.Population
