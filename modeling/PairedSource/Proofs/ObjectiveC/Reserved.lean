import PairedSource.Proofs.ObjectiveC.Distinct

namespace PairedSource.ObjectiveC

open Identifier

variable {config : RunConfig} {mode : TargetMode} {context : UnitContext Entry}
  {unit : SourceUnit} {units : List SourceUnit} {name : String}

/-- The reserved words that are a type name followed by a member name with an upper-case letter. -/
def reservedConstants : List String := ["YES", "NO", "BOOL", "SEL", "IMP", "NSObject"]

theorem mem_reservedConstants {front back : List Char} {c : Char}
    (hreserved : naming.isReserved name = true) (hsplit : name.toList = front ++ c :: back)
    (hfront : front.getLast?.any Char.isAlphanum = true) (hc : c.isUpper = true) :
    name ∈ reservedConstants := by
  have hall : ∀ word ∈ reservedWords, word ∉ reservedConstants →
      ∀ i ∈ List.range word.toList.length,
        (word.toList.take i).getLast?.any Char.isAlphanum = true →
          (word.toList.drop i).head?.any Char.isUpper = false := by decide
  by_contra hname
  have hmem : name ∈ reservedWords := List.contains_iff_mem.1 hreserved
  have hlength : front.length ∈ List.range name.toList.length := by simp [hsplit]
  have h := hall name hmem hname front.length hlength
  rw [hsplit, List.take_left', List.drop_left'] at h
  · simpa [hc] using h hfront
  all_goals rfl

theorem isReserved_constantName_iff {type member : String}
    (htype : type.toList.getLast?.any Char.isAlphanum = true) (hmember : IsMemberName member) :
    naming.isReserved (constantName type member) = true ↔
      constantName type member ∈ reservedConstants := by
  constructor
  · intro h
    obtain ⟨c, cs, -, hc, hupper⟩ := hmember.toList_upperFirst
    have hsplit : (constantName type member).toList = type.toList ++ c.toUpper :: cs := by
      rw [constantName, String.toList_append, hupper]
    exact mem_reservedConstants h hsplit htype (Text.isUpper_toUpper hc)
  · intro h
    have hall : ∀ word ∈ reservedConstants, naming.isReserved word = true := by decide
    exact hall _ h

theorem isIdentifier_constantName {type member : String} (htype : isIdentifier type = true)
    (hmember : IsMemberName member) : isIdentifier (constantName type member) = true := by
  refine isIdentifier_append htype fun c hc ↦ isContinuation_of_isAlphanum ?_
  exact Text.isAlphanum_of_mem_upperFirst (fun _ ↦ hmember.isAlphanum_of_mem) hc

theorem isReserved_colorMethodName (member : String) :
    naming.isReserved (colorMethodName member) = false := by
  have hall : ∀ word ∈ reservedWords, ¬"Color".toList <:+ word.toList := by decide
  rw [← Bool.not_eq_true]
  intro h
  refine hall _ (List.contains_iff_mem.1 h) ?_
  rw [colorMethodName, String.toList_append]
  exact List.suffix_append _ _

theorem isIdentifier_colorMethodName {member : String} (h : IsMemberName member) :
    isIdentifier (colorMethodName member) = true :=
  isIdentifier_append h.isIdentifier (List.all_eq_true.1 (by decide))

namespace Rendered

theorem of_mem_constants (h : Rendered config context unit)
    (hname : name ∈ constants context mode) :
    isIdentifier name = true ∧ (naming.isReserved name = true ↔ name ∈ reservedConstants) := by
  rw [constants, constant?_interface] at hname
  obtain ⟨item, hitem, hconstant⟩ := List.mem_filterMap.1 hname
  obtain ⟨member, hmember, rfl⟩ := List.mem_map.1 hitem
  rw [eq_constantName hconstant]
  have hmember := h.isMemberName member hmember
  exact ⟨isIdentifier_constantName (NamingPolicy.isIdentifier_typeName rfl h.typeName) hmember,
    isReserved_constantName_iff (NamingPolicy.isAlphanum_getLast?_typeName rfl h.typeName) hmember⟩

theorem of_mem_methods (h : Rendered config context unit) (hname : name ∈ methods context mode) :
    isIdentifier name = true ∧ naming.isReserved name = false := by
  rw [methods, interface, List.filterMap_append, List.mem_append, method?_memberItems] at hname
  rcases hname with hname | hname
  · obtain ⟨member, hmember, rfl⟩ := List.mem_map.1 hname
    have hmember := h.isMemberName member (List.mem_of_mem_filter hmember)
    exact ⟨isIdentifier_colorMethodName hmember, isReserved_colorMethodName member.name⟩
  · split at hname
    · obtain rfl : name = allColors := by simpa [Item.method?] using hname
      exact ⟨by decide, by decide⟩
    · cases hname

end Rendered

/-- All names of a run are identifiers. Those of types and methods are never reserved words, and
those of constants only where a type and a member make one of a few words together, which nothing
looks at. -/
theorem names_usable {models : List (UnitModel Entry)} {generation : Generation}
    (hpopulate : populate naming renderer config models = .ok units)
    (hgenerate : engine.generate config units = .ok generation) :
    (∀ name ∈ generation.unitNames, isIdentifier name = true ∧ naming.isReserved name = false) ∧
    ∃ contexts, List.Forall₂ (Population.Names naming config) models contexts ∧
      List.Forall₂ (Matches config.targetMode) contexts units ∧
      ∀ context ∈ contexts,
        (∀ name ∈ methods context config.targetMode,
          isIdentifier name = true ∧ naming.isReserved name = false) ∧
        ∀ name ∈ constants context config.targetMode, isIdentifier name = true ∧
          (naming.isReserved name = true ↔ name ∈ reservedConstants) := by
  constructor
  · intro name hname
    obtain ⟨unit, -, htype⟩ := (names_of_generate hgenerate).1.exists_of_mem_right hname
    exact ⟨NamingPolicy.isIdentifier_typeName rfl htype, NamingPolicy.isReserved_of_typeName htype⟩
  · obtain ⟨contexts, hnames, hrendered⟩ := exists_rendered_of_populate hpopulate
    refine ⟨contexts, hnames, hrendered.imp fun context unit h ↦ h.matches config.targetMode, ?_⟩
    intro context hcontext
    obtain ⟨unit, -, h⟩ := hrendered.exists_of_mem_left hcontext
    exact ⟨fun name ↦ h.of_mem_methods, fun name ↦ h.of_mem_constants⟩

theorem names_usable_palette : ∃ units generation,
    populate naming renderer paletteConfig palette = .ok units ∧
      engine.generate paletteConfig units = .ok generation ∧
      ∀ name ∈ generation.unitNames, isIdentifier name = true ∧ naming.isReserved name = false := by
  obtain ⟨units, generation, hunits, hgeneration⟩ := generates_palette
  exact ⟨units, generation, hunits, hgeneration, (names_usable hunits hgeneration).1⟩

def shortKeys : List (UnitModel Entry) :=
  [{ key := "n", members := [⟨"o", .identifier "x"⟩] }]

/-- The unit `n` and its member `o` have the constant `NO`. -/
theorem constant_named_no : ∃ units generation,
    populate naming renderer { input := ⟨"n.toml"⟩ } shortKeys = .ok units ∧
      engine.generate { input := ⟨"n.toml"⟩ } units = .ok generation ∧
      units.flatMap SourceUnit.declarations = [.text "extern NSString *const NO;"] ∧
      naming.isReserved "NO" = true := by
  have hrun : ((populate naming renderer { input := ⟨"n.toml"⟩ } shortKeys).toOption.bind
      fun units ↦ (engine.generate { input := ⟨"n.toml"⟩ } units).toOption.map
        fun _ ↦ units.flatMap SourceUnit.declarations) =
      some [.text "extern NSString *const NO;"] := by decide
  obtain ⟨units, hunits, hgenerate⟩ := Option.bind_eq_some_iff.1 hrun
  obtain ⟨generation, hgeneration, hdeclarations⟩ := Option.map_eq_some_iff.1 hgenerate
  exact ⟨units, generation, Except.toOption_eq_some_iff.1 hunits,
    Except.toOption_eq_some_iff.1 hgeneration, hdeclarations, by decide⟩

end PairedSource.ObjectiveC
