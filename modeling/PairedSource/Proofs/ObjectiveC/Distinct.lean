import PairedSource.Proofs.Assembly.Stages
import PairedSource.Proofs.ObjectiveC.Matching

namespace PairedSource.ObjectiveC

variable {config : RunConfig} {mode : TargetMode} {context : UnitContext Entry}
  {contexts : List (UnitContext Entry)} {unit : SourceUnit} {units : List SourceUnit}

def constants (context : UnitContext Entry) (mode : TargetMode) : List String :=
  (interface context mode).filterMap Item.constant?

def methods (context : UnitContext Entry) (mode : TargetMode) : List String :=
  (interface context mode).filterMap Item.method?

theorem constantName_injective {unit s t : String} (hs : Identifier.IsMemberName s)
    (ht : Identifier.IsMemberName t) (h : constantName unit s = constantName unit t) : s = t := by
  have hlist := congrArg String.toList h
  rw [constantName, constantName, String.toList_append, String.toList_append] at hlist
  exact hs.upperFirst_injective ht (String.toList_inj.1 (List.append_cancel_left hlist))

theorem eq_constantName {unit name : String} {member : NamedMember Entry}
    (h : (itemOf unit member).constant? = some name) : name = constantName unit member.name := by
  rw [itemOf] at h
  cases hvalue : member.value with
  | identifier value =>
    rw [hvalue] at h
    exact (Option.some.inj h).symm
  | color color =>
    rw [hvalue] at h
    cases h

theorem colorMethodName_ne_allColors (name : String) : colorMethodName name ≠ allColors := by
  intro h
  have hlast := congrArg (fun s : String ↦ s.toList.getLast?) h
  simp [colorMethodName, allColors] at hlast

namespace Rendered

theorem nodup_constants (h : Rendered config context unit) (mode : TargetMode) :
    (constants context mode).Nodup := by
  have hnodup := List.pairwise_map.1 h.nodup
  rw [constants, constant?_interface, memberItems, List.filterMap_map, List.Nodup,
    List.pairwise_filterMap]
  refine hnodup.imp_of_mem ?_
  intro member other hmember hother hne name hname name' hname' heq
  rw [eq_constantName hname, eq_constantName hname'] at heq
  exact hne (constantName_injective (h.isMemberName member hmember)
    (h.isMemberName other hother) heq)

/-- The set of symbols of a unit swallows none of its constants. -/
theorem toList_symbols (h : Rendered config context unit) (mode : TargetMode) :
    unit.symbols.toList = constants context mode := by
  have hnodup := h.nodup_constants mode
  obtain ⟨imports, rfl⟩ := h.unit_eq
  rw [constants, constant?_interface] at hnodup ⊢
  exact OrderedSet.toList_insertAll hnodup

theorem nodup_methods (h : Rendered config context unit) (mode : TargetMode) :
    (methods context mode).Nodup := by
  have hmethods := nodup_colorMethods h.nodup
  rw [methods, interface, List.filterMap_append, method?_memberItems]
  split
  · have hlast : [Item.method (arrayType mode) allColors].filterMap Item.method? = [allColors] :=
      rfl
    rw [hlast, List.nodup_append_comm]
    refine List.nodup_cons.2 ⟨?_, hmethods⟩
    intro hmem
    obtain ⟨member, -, heq⟩ := List.mem_map.1 hmem
    exact colorMethodName_ne_allColors member.name heq
  · simpa using hmethods

end Rendered

theorem names_eq (hrendered : List.Forall₂ (Rendered config) contexts units) {names : List String}
    (hnames : List.Forall₂ (fun unit name ↦
      naming.typeName unit.key config.namePrefix = .ok name) units names) :
    names = contexts.map UnitContext.name := by
  induction hrendered generalizing names with
  | nil =>
    cases hnames
    rfl
  | @cons context unit contexts units h _ ih =>
    cases hnames with
    | @cons _ name _ names hname hnames =>
      obtain ⟨imports, rfl⟩ := h.unit_eq
      have heq : context.name = name := Except.ok.inj (h.typeName.symm.trans hname)
      rw [List.map_cons, ← heq, ih hnames]

theorem flatMap_symbols (hrendered : List.Forall₂ (Rendered config) contexts units)
    (mode : TargetMode) :
    units.flatMap (·.symbols.toList) = contexts.flatMap (constants · mode) := by
  induction hrendered with
  | nil => rfl
  | cons h _ ih => rw [List.flatMap_cons, List.flatMap_cons, h.toList_symbols mode, ih]

/-- In one run no two members of whatever units become the same constant, no constant takes the
name of a type, and no class has a method twice. -/
theorem no_name_defined_twice {models : List (UnitModel Entry)} {generation : Generation}
    (hpopulate : populate naming renderer config models = .ok units)
    (hgenerate : engine.generate config units = .ok generation) :
    ∃ contexts, List.Forall₂ (Population.Names naming config) models contexts ∧
      List.Forall₂ (Matches config.targetMode) contexts units ∧
      generation.unitNames = contexts.map UnitContext.name ∧
      (contexts.flatMap (constants · config.targetMode) ++ generation.unitNames).Nodup ∧
      ∀ context ∈ contexts, (methods context config.targetMode).Nodup := by
  obtain ⟨contexts, hnames, hrendered⟩ := exists_rendered_of_populate hpopulate
  obtain ⟨htypes, hnodup⟩ := names_of_generate hgenerate
  rw [flatMap_symbols hrendered config.targetMode, List.nodup_append_comm] at hnodup
  refine ⟨contexts, hnames, hrendered.imp fun context unit h ↦ h.matches config.targetMode,
    names_eq hrendered htypes, hnodup, ?_⟩
  intro context hcontext
  obtain ⟨unit, -, h⟩ := hrendered.exists_of_mem_left hcontext
  exact h.nodup_methods config.targetMode

theorem generates_palette : ∃ units generation,
    populate naming renderer paletteConfig palette = .ok units ∧
      engine.generate paletteConfig units = .ok generation := by
  have hsome : ((populate naming renderer paletteConfig palette).toOption.bind fun units ↦
      (engine.generate paletteConfig units).toOption).isSome = true := by decide
  obtain ⟨generation, hgeneration⟩ := Option.isSome_iff_exists.1 hsome
  obtain ⟨units, hunits, hgeneration⟩ := Option.bind_eq_some_iff.1 hgeneration
  exact ⟨units, generation, Except.toOption_eq_some_iff.1 hunits,
    Except.toOption_eq_some_iff.1 hgeneration⟩

theorem no_name_defined_twice_palette : ∃ units generation,
    populate naming renderer paletteConfig palette = .ok units ∧
      engine.generate paletteConfig units = .ok generation ∧
      ∃ contexts, List.Forall₂ (Population.Names naming paletteConfig) palette contexts ∧
        (contexts.flatMap (constants · .modern) ++ generation.unitNames).Nodup := by
  obtain ⟨units, generation, hunits, hgeneration⟩ := generates_palette
  obtain ⟨contexts, hnames, -, -, hnodup, -⟩ := no_name_defined_twice hunits hgeneration
  exact ⟨units, generation, hunits, hgeneration, contexts, hnames, hnodup⟩

end PairedSource.ObjectiveC
