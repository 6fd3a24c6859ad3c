import Mathlib.Data.List.Nodup
import PairedSource.Proofs.ObjectiveC.Interface
import PairedSource.Proofs.Text.Lines

namespace PairedSource

open Text in
theorem Color.isLine_fraction (channel : UInt8) : IsLine (fraction channel) := by
  have hdigits (n : Nat) : ∀ c ∈ Nat.toDigits 10 n, c.isAlphanum = true := by
    intro c hc
    have hdigit := Nat.isDigit_of_mem_toDigits (by decide) (by decide) hc
    rw [Char.isAlphanum, hdigit, Bool.or_true]
  have hwhole (n : Nat) : IsLine (toString n) := by
    apply isLine_of_isAlphanum
    have htext : (toString n).toList = Nat.toDigits 10 n := String.toList_ofList
    rw [htext]
    exact hdigits n
  refine ((hwhole _).append (by decide)).append (isLine_of_isAlphanum ?_)
  intro c hc
  rw [String.toList_ofList, List.mem_append] at hc
  rcases hc with hc | hc
  · rw [List.eq_of_mem_replicate hc]
    rfl
  · exact hdigits _ c hc

namespace ObjectiveC

open Assembly

def initializer : TargetMode → String
  | .modern => "colorWithDisplayP3Red"
  | .legacy => "colorWithRed"

def colorLines (mode : TargetMode) (method : String) (color : Color) : List String :=
  [s!"+ (UIColor *){method}", "\x7b",
    s!"    return [UIColor {initializer mode}:{Color.fraction color.red}" ++
      s!" green:{Color.fraction color.green} blue:{Color.fraction color.blue}" ++
      s!" alpha:{Color.fraction color.alpha}];", "\x7d"]

/-- The lines of the method for all colours: a message to the class for each of some methods, with
a comma after all but the last. -/
def allColorsLines (mode : TargetMode) (methods : List String) : List String :=
  [s!"+ ({arrayType mode}){allColors}", "\x7b", "    return @["] ++
    (methods.dropLast.map fun method ↦ s!"        [self {method}],") ++
    (methods.getLast?.toList.map fun method ↦ s!"        [self {method}]") ++ ["    ];", "\x7d"]

/-- The fragments of a unit resolve to what its interface declares and to definitions of just that,
one for each item in the same place. -/
structure Matches (mode : TargetMode) (context : UnitContext Entry) (unit : SourceUnit) : Prop where
  length_eq : unit.declarations.length = unit.definitions.length
  declarations : unit.declarations.mapM (resolve rules mode context.name) =
    .ok ((interface context mode).map Item.declaration)
  definitions : ∃ texts, unit.definitions.mapM (resolve rules mode context.name) = .ok texts ∧
    List.Forall₂ Item.IsDefinedBy (interface context mode) texts ∧
    (hasColor context = true → texts.getLast?.map Text.lines =
      some (allColorsLines mode ((memberItems context).filterMap Item.method?)))
  nodup : ((memberItems context).filterMap Item.method?).Nodup

section Lines

open Text CodeBuilder

variable {mode : TargetMode} {method : String} {methods : List String}

theorem selfCalls_eq (methods : List String) :
    selfCalls methods = (methods.dropLast.map fun method ↦ s!"[self {method}],") ++
      methods.getLast?.toList.map fun method ↦ s!"[self {method}]" := by
  induction methods using selfCalls.induct with
  | case1 => rfl
  | case2 method => rfl
  | case3 method rest hrest ih =>
    have hne : rest ≠ [] := by
      intro h
      exact hrest h
    rw [selfCalls, ih, List.dropLast_cons_of_ne_nil hne, List.getLast?_cons_of_ne_nil hne,
      List.map_cons, List.cons_append]
    exact hrest

theorem isLine_of_mem_allColorsLines (h : ∀ method ∈ methods, IsLine method) :
    ∀ l ∈ allColorsLines mode methods, IsLine l := by
  have hsend : ∀ method ∈ methods, ∀ tail, IsLine tail →
      IsLine ("        [self " ++ method ++ tail) := by
    intro method hmethod tail htail
    have hself : IsLine "        [self " := by decide
    exact (hself.append (h method hmethod)).append htail
  have hsignature : IsLine s!"+ ({arrayType mode}){allColors}" := by
    cases mode <;> decide
  intro l hl
  simp only [allColorsLines, List.mem_append, List.mem_map, List.mem_cons, Option.mem_toList] at hl
  rcases hl with (((rfl | rfl | rfl | hnil) | hbefore) | hlast) | rfl | rfl | hnil
  · exact hsignature
  · decide
  · decide
  · cases hnil
  · obtain ⟨method, hmethod, rfl⟩ := hbefore
    exact hsend method ((List.dropLast_subset _ hmethod)) "]," (by decide)
  · obtain ⟨method, hmethod, rfl⟩ := hlast
    exact hsend method (List.mem_of_getLast? hmethod) "]" (by decide)
  · decide
  · decide
  · cases hnil

theorem isLine_of_mem_colorLines {color : Color} (h : IsLine method) :
    ∀ l ∈ colorLines mode method color, IsLine l := by
  have hsignature : IsLine s!"+ (UIColor *){method}" := by
    have htype : IsLine "+ (UIColor *)" := by decide
    exact htype.append h
  have hreturn : IsLine ("    return [UIColor " ++ initializer mode ++ ":") := by
    cases mode <;> decide
  have hpart : ∀ label channel, IsLine label → IsLine (label ++ Color.fraction channel) :=
    fun _ channel hlabel ↦ hlabel.append (Color.isLine_fraction channel)
  have hbody := ((((hpart _ color.red hreturn).append
    (hpart " green:" color.green (by decide))).append
    (hpart " blue:" color.blue (by decide))).append
    (hpart " alpha:" color.alpha (by decide))).append (by decide : IsLine "];")
  intro l hl
  simp only [colorLines, List.mem_cons, List.not_mem_nil, or_false] at hl
  rcases hl with rfl | rfl | rfl | rfl
  · exact hsignature
  · decide
  · simpa only [toString_eq, String.append_assoc] using hbody
  · decide

theorem colorMethod_eq (mode : TargetMode) (method : String) (color : Color) :
    colorMethod (initializer mode) { kind := colorAccessor, args := method :: color.components } =
      String.join ((colorLines mode method color).map (· ++ "\n")) := by
  simp only [colorMethod]
  rw [block_eq_addLines _ _ _ fun b _ ↦ line_eq_addLines b _, line_eq_addLines, addLines_addLines,
    text_addLines_start]
  congr 2
  have hindent : ∀ ls, (({} : CodeBuilder).addLines ls).indent.text = "    " := fun _ ↦ rfl
  have hblue : ∀ s : String, s ++ " " ++ "blue:" = s ++ " blue:" := by
    intro s
    rw [String.append_assoc]
    rfl
  simp [colorLines, hindent, hblue, Construct.argAt, Color.components,
    ← String.append_assoc]

theorem lines_colorMethod {color : Color} (h : IsLine method) :
    lines (colorMethod (initializer mode)
      { kind := colorAccessor, args := method :: color.components }) =
      colorLines mode method color := by
  rw [colorMethod_eq, lines_join (isLine_of_mem_colorLines h)]

theorem allColorsMethod_eq (mode : TargetMode) (methods : List String) :
    allColorsMethod (arrayType mode) { kind := allColorsDefinition, args := allColors :: methods } =
      String.join ((allColorsLines mode methods).map (· ++ "\n")) := by
  have hinner : ∀ b : CodeBuilder, (b.block "return @[" "];" fun b ↦ b.each (selfCalls methods)
      line) = b.addLines ("return @[" :: (selfCalls methods).map (b.indent.text ++ ·) ++ ["];"]) :=
    fun b ↦ b.block_eq_addLines _ _ fun b' _ ↦ b'.each_line _
  simp only [allColorsMethod, List.drop_succ_cons, List.drop_zero]
  rw [block_eq_addLines _ _ _ fun b hb ↦ (hinner b).trans (by rw [hb]),
    line_eq_addLines, addLines_addLines, selfCalls_eq, text_addLines_start]
  congr 2
  have hindent : ∀ ls, (({} : CodeBuilder).addLines ls).indent.text = "    " := fun _ ↦ rfl
  have hname : ∀ kind, (Construct.mk kind (allColors :: methods)).argAt 0 = allColors :=
    fun _ ↦ rfl
  simp [allColorsLines, hindent, hname, Function.comp_def, ← String.append_assoc]

theorem lines_allColorsMethod (h : ∀ method ∈ methods, IsLine method) :
    lines (allColorsMethod (arrayType mode)
      { kind := allColorsDefinition, args := allColors :: methods }) =
      allColorsLines mode methods := by
  rw [allColorsMethod_eq, lines_join (isLine_of_mem_allColorsLines h)]

end Lines

variable {mode : TargetMode} {context : UnitContext Entry} {config : RunConfig}
  {imports : List String}

theorem isLine_colorMethodName {name : String} (h : Identifier.IsMemberName name) :
    Text.IsLine (colorMethodName name) :=
  (Text.isLine_of_isAlphanum fun _ ↦ h.isAlphanum_of_mem).append (by decide)

def definitionText (mode : TargetMode) (unit : String) (member : NamedMember Entry) : String :=
  match member.value with
  | .identifier value =>
    s!"NSString *const {constantName unit member.name} = @\"{Literal.escape value}\";"
  | .color color => colorMethod (initializer mode)
      { kind := colorAccessor, args := colorMethodName member.name :: color.components }

def definitionTexts (mode : TargetMode) (context : UnitContext Entry) : List String :=
  context.members.map (definitionText mode context.name) ++
    if hasColor context then [allColorsMethod (arrayType mode)
      { kind := allColorsDefinition, args := allColors :: colorMethods context }] else []

theorem mapM_declarations (mode : TargetMode) (context : UnitContext Entry) (name : String) :
    (unitOf context imports).declarations.mapM (resolve rules mode name) =
      .ok ((interface context mode).map Item.declaration) := by
  have hmembers : ((memberItems context).map (Fragment.text ·.declaration)).mapM
      (resolve rules mode name) = .ok ((memberItems context).map Item.declaration) := by
    rw [Except.mapM_eq_ok_iff, List.forall₂_map_left_iff, List.forall₂_map_right_iff,
      List.forall₂_same]
    exact fun _ _ ↦ rfl
  rw [unitOf, interface, List.map_append]
  refine Except.mapM_append_eq_ok hmembers ?_
  split
  · cases mode <;> rfl
  · rfl

theorem mapM_definitions (mode : TargetMode) (context : UnitContext Entry) (name : String) :
    (unitOf context imports).definitions.mapM (resolve rules mode name) =
      .ok (definitionTexts mode context) := by
  have hmembers : (context.members.map (definitionOf context.name)).mapM
      (resolve rules mode name) = .ok (context.members.map (definitionText mode context.name)) := by
    rw [Except.mapM_eq_ok_iff, List.forall₂_map_left_iff, List.forall₂_map_right_iff,
      List.forall₂_same]
    intro member _
    rw [definitionOf, definitionText]
    cases member.value with
    | identifier value => rfl
    | color color => cases mode <;> rfl
  rw [unitOf, definitionTexts]
  refine Except.mapM_append_eq_ok hmembers ?_
  split
  · cases mode <;> rfl
  · rfl

section Definitions

variable (h : ∀ member ∈ context.members, Text.IsLine (colorMethodName member.name))

include h

theorem isLine_of_mem_colorMethods : ∀ method ∈ colorMethods context, Text.IsLine method := by
  intro method hmethod
  obtain ⟨member, hmember, rfl⟩ := List.mem_map.1 hmethod
  exact h member (List.mem_of_mem_filter hmember)

theorem isDefinedBy_definitionText (mode : TargetMode) {member : NamedMember Entry}
    (hmember : member ∈ context.members) :
    (itemOf context.name member).IsDefinedBy (definitionText mode context.name member) := by
  have hmethod := h member hmember
  rw [itemOf, definitionText]
  cases member.value with
  | identifier value => rfl
  | color color => exact congrArg List.head? (lines_colorMethod hmethod)

theorem forall₂_isDefinedBy (mode : TargetMode) :
    List.Forall₂ Item.IsDefinedBy (interface context mode) (definitionTexts mode context) := by
  rw [interface, definitionTexts]
  refine List.rel_append ?_ ?_
  · rw [memberItems, List.forall₂_map_left_iff, List.forall₂_map_right_iff, List.forall₂_same]
    exact fun member ↦ isDefinedBy_definitionText h mode
  · split
    · refine .cons ?_ .nil
      rw [Item.IsDefinedBy, lines_allColorsMethod (isLine_of_mem_colorMethods h)]
      rfl
    · exact .nil

theorem lines_getLast?_definitionTexts (mode : TargetMode) (hcolor : hasColor context = true) :
    (definitionTexts mode context).getLast?.map Text.lines =
      some (allColorsLines mode (colorMethods context)) := by
  rw [definitionTexts, if_pos hcolor, List.getLast?_concat, Option.map_some,
    lines_allColorsMethod (isLine_of_mem_colorMethods h)]

end Definitions

theorem nodup_colorMethods (h : (context.members.map NamedMember.name).Nodup) :
    (colorMethods context).Nodup := by
  have hinjective : Function.Injective colorMethodName := by
    intro s t hst
    have hlist := congrArg String.toList hst
    rw [colorMethodName, colorMethodName, String.toList_append, String.toList_append] at hlist
    exact String.toList_inj.1 (List.append_cancel_right hlist)
  have hnames : ((context.members.filter (·.value.isColor)).map NamedMember.name).Nodup :=
    h.sublist (List.filter_sublist.map _)
  rw [colorMethods, ← Function.comp_def colorMethodName, ← List.map_map]
  exact List.Nodup.map hinjective hnames

theorem Rendered.matches {unit : SourceUnit} (h : Rendered config context unit)
    (mode : TargetMode) : Matches mode context unit := by
  obtain ⟨imports, rfl⟩ := h.unit_eq
  have hline : ∀ member ∈ context.members, Text.IsLine (colorMethodName member.name) :=
    fun member hmember ↦ isLine_colorMethodName (h.isMemberName member hmember)
  refine ⟨?_, mapM_declarations mode context context.name, ?_, ?_⟩
  · simp only [unitOf, memberItems, List.length_append, List.length_map]
    split <;> rfl
  · rw [method?_memberItems]
    exact ⟨_, mapM_definitions mode context context.name, forall₂_isDefinedBy hline mode,
      lines_getLast?_definitionTexts hline mode⟩
  · rw [method?_memberItems]
    exact nodup_colorMethods h.nodup

/-- Whatever the members of a unit are, its header declares what its implementation defines. -/
theorem header_matches_implementation {models : List (UnitModel Entry)} {units : List SourceUnit}
    (h : populate naming renderer config models = .ok units) (mode : TargetMode) :
    ∃ contexts, List.Forall₂ (Population.Names naming config) models contexts ∧
      List.Forall₂ (Matches mode) contexts units := by
  obtain ⟨contexts, hnames, hrendered⟩ := exists_rendered_of_populate h
  exact ⟨contexts, hnames, hrendered.imp fun context unit h ↦ h.matches mode⟩

def palette : List (UnitModel Entry) :=
  [{ key := "brand"
     members := [⟨"sky", .color ⟨0, 128, 255, 255⟩⟩, ⟨"title", .identifier "a \"b\""⟩,
       ⟨"deep-sea", .color ⟨0, 0, 64, 255⟩⟩] },
   { key := "fonts", members := [⟨"title", .identifier "Serif"⟩] }]

def paletteConfig : RunConfig where
  input := ⟨"palette.toml"⟩

theorem populates_palette :
    ∃ units, populate naming renderer paletteConfig palette = .ok units := by
  have hsome : (populate naming renderer paletteConfig palette).toOption.isSome = true := by
    decide
  obtain ⟨units, hunits⟩ := Option.isSome_iff_exists.1 hsome
  exact ⟨units, Except.toOption_eq_some_iff.1 hunits⟩

theorem header_matches_implementation_palette :
    ∃ units, populate naming renderer paletteConfig palette = .ok units ∧
      ∃ contexts, List.Forall₂ (Population.Names naming paletteConfig) palette contexts ∧
        List.Forall₂ (Matches .legacy) contexts units := by
  obtain ⟨units, hunits⟩ := populates_palette
  exact ⟨units, hunits, header_matches_implementation hunits .legacy⟩

end ObjectiveC

end PairedSource
