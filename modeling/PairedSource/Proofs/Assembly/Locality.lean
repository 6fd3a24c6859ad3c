import Mathlib.Data.List.Flatten
import Mathlib.Data.List.Perm.Subperm
import PairedSource.Proofs.Assembly.Layout

namespace PairedSource

open Assembly

section Locality

variable {engine : Engine} {config : RunConfig} {unit : SourceUnit} {units others : List SourceUnit}
  {generation : Generation}

theorem nodup_names_of_subperm {name : SourceUnit → String} (hsubperm : others.Subperm units)
    (h : (units.map name ++ units.flatMap (·.symbols.toList)).Nodup) :
    (others.map name ++ others.flatMap (·.symbols.toList)).Nodup := by
  obtain ⟨chosen, hperm, hsublist⟩ := hsubperm
  have hchosen := (hsublist.map name).append (hsublist.flatMap (·.symbols.toList))
  exact ((hperm.map name).append (hperm.flatMap_right _)).nodup_iff.1 (hchosen.nodup h)

theorem assemble_of_subperm {f : SourceUnit → AssembledUnit}
    (h : engine.assemble config units = .ok (units.map f)) (hsubperm : others.Subperm units) :
    engine.assemble config others = .ok (others.map f) := by
  obtain ⟨haccepted, hunits, hnodup⟩ := Engine.assemble_eq_ok_iff.1 h
  rw [List.forall₂_map_right_iff, List.forall₂_same] at hunits
  refine Engine.assemble_eq_ok_iff.2 ⟨haccepted, ?_, ?_⟩
  · rw [List.forall₂_map_right_iff, List.forall₂_same]
    exact fun unit hunit ↦ hunits unit (hsubperm.subset hunit)
  · rw [List.map_map] at hnodup ⊢
    exact nodup_names_of_subperm hsubperm hnodup

theorem exists_map_of_assemble {assembled : List AssembledUnit}
    (h : engine.assemble config units = .ok assembled) :
    ∃ f : SourceUnit → AssembledUnit, assembled = units.map f := by
  obtain ⟨-, hunits, -⟩ := Engine.assemble_eq_ok_iff.1 h
  have hnonempty : Nonempty AssembledUnit := ⟨⟨"", ∅, "", ""⟩⟩
  have hunique : ∀ unit a b, Assembles engine config unit a → Assembles engine config unit b →
      a = b := fun _ _ _ ha hb ↦ ha.unique hb
  exact hunits.exists_eq_map hunique

theorem generate_of_assemble (haggregate : config.aggregate = false)
    {f : SourceUnit → AssembledUnit} (h : engine.assemble config units = .ok (units.map f)) :
    engine.generate config units = .ok {
      aggregate := false
      pairs := units.map fun unit ↦ pair engine.language config (f unit).name [f unit] } := by
  refine Engine.generate_eq_ok_iff.2 ⟨units.map f, h, layOut_eq_ok_iff.2 (.inr ⟨haggregate, ?_⟩)⟩
  rw [List.map_map]
  rfl

/-- One function of a unit gives the pairs of a run and of every choice of its units. -/
theorem exists_pages (haggregate : config.aggregate = false)
    (h : engine.generate config units = .ok generation) :
    ∃ page : SourceUnit → ArtifactPair,
      generation = { aggregate := false, pairs := units.map page } ∧
      ∀ others, others.Subperm units → engine.generate config others =
        .ok { aggregate := false, pairs := others.map page } := by
  obtain ⟨assembled, hassembled, -⟩ := Engine.generate_eq_ok_iff.1 h
  obtain ⟨f, rfl⟩ := exists_map_of_assemble hassembled
  have hsome (others : List SourceUnit) (hsubperm : others.Subperm units) :=
    generate_of_assemble haggregate (assemble_of_subperm hassembled hsubperm)
  have hall := hsome units (List.Subperm.refl units)
  exact ⟨_, Except.ok.inj (h.symm.trans hall), hsome⟩

/-- The pair of a unit depends on the unit and the configuration alone: it is the same whatever
other units there are, and in whatever order. -/
theorem pairs_local (haggregate : config.aggregate = false)
    (h : engine.generate config units = .ok generation) :
    ∃ page : SourceUnit → ArtifactPair,
      generation = { aggregate := false, pairs := units.map page } ∧
      (∀ unit ∈ units, engine.generate config [unit] =
        .ok { aggregate := false, pairs := [page unit] }) ∧
      (∀ others, others.Subperm units → engine.generate config others =
        .ok { aggregate := false, pairs := others.map page }) ∧
      ∀ others generation', engine.generate config others = .ok generation' →
        ∀ (index : Nat) (unit : SourceUnit), others[index]? = some unit → unit ∈ units →
          generation'.pairs[index]? = some (page unit) := by
  obtain ⟨page, heq, hsome⟩ := exists_pages haggregate h
  have hone (unit : SourceUnit) (hunit : unit ∈ units) :=
    hsome [unit] (List.singleton_subperm_iff.2 hunit)
  refine ⟨page, heq, hone, hsome, fun others generation' h' index unit hindex hunit ↦ ?_⟩
  obtain ⟨page', rfl, hsome'⟩ := exists_pages haggregate h'
  have hone' := hsome' [unit] (List.singleton_subperm_iff.2 (List.mem_of_getElem? hindex))
  have hpages : [page' unit] = [page unit] :=
    congrArg Generation.pairs (Except.ok.inj (hone'.symm.trans (hone unit hunit)))
  rw [List.getElem?_map, hindex, Option.map_some, List.singleton_inj.1 hpages]

end Locality

namespace ObjectiveC

theorem pairs_local_panels : ∃ generation,
    engine.generate panelsConfig panels = .ok generation ∧
      ∃ reversed, engine.generate panelsConfig panels.reverse = .ok reversed ∧
        reversed.pairs = generation.pairs.reverse := by
  obtain ⟨generation, h⟩ := generates_panels false
  obtain ⟨page, rfl, -, hsome, -⟩ := pairs_local rfl h
  have hreversed := hsome panels.reverse (List.reverse_perm panels).subperm
  exact ⟨_, h, _, hreversed, List.map_reverse⟩

end ObjectiveC

end PairedSource
