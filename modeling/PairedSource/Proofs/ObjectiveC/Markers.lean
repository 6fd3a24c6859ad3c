import PairedSource.Proofs.Assembly.Bodies
import PairedSource.Proofs.ObjectiveC.Literal
import PairedSource.Proofs.ObjectiveC.Reserved

namespace PairedSource.ObjectiveC

open Assembly Identifier Text

variable {mode : TargetMode} {config : RunConfig} {context : UnitContext Entry}
  {unit : SourceUnit} {units : List SourceUnit} {name method l : String}
  {methods inner : List String}

def IsUnmarked (l : String) : Prop :=
  IsLine l ∧ l.toList.head? ≠ some '@'

instance : Decidable (IsUnmarked l) :=
  inferInstanceAs (Decidable (_ ∧ _))

/-- A body runs from its first line to the end marker, with no marker and no carriage return on the
way. -/
structure IsEnclosed (opening : String) (inner : List String) (body : String) : Prop where
  text : body = String.join ((opening :: inner ++ ["@end"]).map (· ++ "\n"))
  lines : lines body = opening :: inner ++ ["@end"]
  unmarked : ∀ l ∈ inner, l.toList.head? ≠ some '@'
  noReturn : '\r' ∉ body.toList

theorem isEnclosed_join {opening : String} (hopening : IsLine opening)
    (hinner : ∀ l ∈ inner, IsUnmarked l) :
    IsEnclosed opening inner (String.join ((opening :: inner ++ ["@end"]).map (· ++ "\n"))) := by
  have hlines : ∀ l ∈ opening :: inner ++ ["@end"], IsLine l := by
    intro l hl
    rw [List.mem_append, List.mem_cons, List.mem_singleton] at hl
    rcases hl with (rfl | hl) | rfl
    · exact hopening
    · exact (hinner l hl).1
    · decide
  exact ⟨rfl, lines_join hlines, fun l hl ↦ (hinner l hl).2, return_notMem_join hlines⟩

theorem isLine_of_isIdentifier (h : isIdentifier name = true) : IsLine name := by
  intro c hc
  have hc := isContinuation_of_mem h hc
  constructor
  · rintro rfl
    exact absurd hc (by decide)
  · rintro rfl
    exact absurd hc (by decide)

theorem isUnmarked_constant (hname : IsLine name) (value : String) :
    IsUnmarked (Item.constant name value).declaration := by
  have hfront : IsLine "extern NSString *const " := by decide
  have hline := (hfront.append hname).append (by decide : IsLine ";")
  rw [Item.declaration_constant]
  exact ⟨hline, by simp⟩

theorem isUnmarked_method {type : String} (htype : IsLine type) (hname : IsLine name) :
    IsUnmarked (Item.method type name).declaration := by
  have hfront : IsLine "+ (" := by decide
  have hline := (((hfront.append htype).append (by decide : IsLine ")")).append hname).append
    (by decide : IsLine ";")
  rw [Item.declaration_method]
  exact ⟨hline, by simp⟩

def memberLines (mode : TargetMode) (unit : String) (member : NamedMember Entry) : List String :=
  match member.value with
  | .identifier value =>
    [s!"NSString *const {constantName unit member.name} = @\"{Literal.escape value}\";"]
  | .color color => colorLines mode (colorMethodName member.name) color

def definitionGroups (mode : TargetMode) (context : UnitContext Entry) : List (List String) :=
  context.members.map (memberLines mode context.name) ++
    if hasColor context then [allColorsLines mode (colorMethods context)] else []

theorem isUnmarked_of_mem_colorLines {color : Color} (h : IsLine method) :
    ∀ l ∈ colorLines mode method color, IsUnmarked l := by
  intro l hl
  refine ⟨isLine_of_mem_colorLines h l hl, ?_⟩
  simp only [colorLines, List.mem_cons, List.not_mem_nil, or_false] at hl
  rcases hl with rfl | rfl | rfl | rfl <;> simp

theorem isUnmarked_of_mem_allColorsLines (h : ∀ method ∈ methods, IsLine method) :
    ∀ l ∈ allColorsLines mode methods, IsUnmarked l := by
  intro l hl
  refine ⟨isLine_of_mem_allColorsLines h l hl, ?_⟩
  simp only [allColorsLines, List.mem_append, List.mem_map, List.mem_cons] at hl
  rcases hl with (((rfl | rfl | rfl | hnil) | ⟨_, -, rfl⟩) | ⟨_, -, rfl⟩) | rfl | rfl | hnil
  case inl.inl.inl.inr.inr.inr => cases hnil
  case inr.inr.inr => cases hnil
  all_goals simp

section Member

variable {member : NamedMember Entry} (hconstant : IsLine (constantName name member.name))
  (hmethod : IsLine (colorMethodName member.name))

include hconstant hmethod

theorem isUnmarked_of_mem_memberLines : ∀ l ∈ memberLines mode name member, IsUnmarked l := by
  rw [memberLines]
  cases member.value with
  | identifier value =>
    intro l hl
    obtain rfl := List.mem_singleton.1 hl
    have hfront : IsLine "NSString *const " := by decide
    exact ⟨(((hfront.append hconstant).append (by decide)).append
      (Literal.isLine_escape value)).append (by decide), by simp⟩
  | color color => exact isUnmarked_of_mem_colorLines hmethod

theorem lines_definitionText :
    lines (definitionText mode name member) = memberLines mode name member := by
  have hunmarked : ∀ l ∈ memberLines mode name member, IsUnmarked l :=
    isUnmarked_of_mem_memberLines hconstant hmethod
  rw [memberLines] at hunmarked ⊢
  rw [definitionText]
  cases hvalue : member.value with
  | identifier value =>
    rw [hvalue] at hunmarked
    exact lines_of_isLine (hunmarked _ List.mem_cons_self).1 (by simp)
  | color color => exact lines_colorMethod hmethod

end Member

namespace Rendered

variable (h : Rendered config context unit)

include h

theorem isLine_constantName {member : NamedMember Entry} (hmember : member ∈ context.members) :
    IsLine (constantName context.name member.name) :=
  isLine_of_isIdentifier (isIdentifier_constantName
    (NamingPolicy.isIdentifier_typeName rfl h.typeName) (h.isMemberName member hmember))

theorem isLine_colorMethodName {member : NamedMember Entry} (hmember : member ∈ context.members) :
    IsLine (colorMethodName member.name) :=
  ObjectiveC.isLine_colorMethodName (h.isMemberName member hmember)

theorem isLine_of_mem_colorMethods : ∀ method ∈ colorMethods context, IsLine method :=
  ObjectiveC.isLine_of_mem_colorMethods fun _ ↦ h.isLine_colorMethodName

theorem isUnmarked_declaration {item : Item} (hitem : item ∈ interface context mode) :
    IsUnmarked item.declaration := by
  rw [interface, List.mem_append] at hitem
  rcases hitem with hitem | hitem
  · obtain ⟨member, hmember, rfl⟩ := List.mem_map.1 hitem
    rw [itemOf]
    cases member.value with
    | identifier value => exact isUnmarked_constant (h.isLine_constantName hmember) value
    | color color => exact isUnmarked_method (by decide) (h.isLine_colorMethodName hmember)
  · split at hitem
    · obtain rfl := List.mem_singleton.1 hitem
      cases mode <;> decide
    · cases hitem

theorem isUnmarked_of_mem_definitionGroups {group : List String}
    (hgroup : group ∈ definitionGroups mode context) : ∀ l ∈ group, IsUnmarked l := by
  rw [definitionGroups, List.mem_append] at hgroup
  rcases hgroup with hgroup | hgroup
  · obtain ⟨member, hmember, rfl⟩ := List.mem_map.1 hgroup
    exact isUnmarked_of_mem_memberLines (h.isLine_constantName hmember)
      (h.isLine_colorMethodName hmember)
  · split at hgroup
    · obtain rfl := List.mem_singleton.1 hgroup
      exact isUnmarked_of_mem_allColorsLines h.isLine_of_mem_colorMethods
    · cases hgroup

theorem map_lines_definitionTexts (mode : TargetMode) :
    (definitionTexts mode context).map lines = definitionGroups mode context := by
  have hmembers : context.members.map (lines ∘ definitionText mode context.name) =
      context.members.map (memberLines mode context.name) := by
    apply List.map_congr_left
    intro member hmember
    exact lines_definitionText (h.isLine_constantName hmember) (h.isLine_colorMethodName hmember)
  rw [definitionTexts, definitionGroups, List.map_append, List.map_map, hmembers]
  congr 1
  split
  · rw [List.map_singleton, lines_allColorsMethod h.isLine_of_mem_colorMethods]
  · rfl

end Rendered

variable (mode context) in
/-- The bodies of a class: a line for each declaration, and for each definition its lines and a
blank one, with a single line for what is a text. -/
structure Encloses (a : AssembledUnit) : Prop where
  declaration : IsEnclosed s!"@interface {a.name} : NSObject"
    ("" :: (interface context mode).map Item.declaration ++
      if (interface context mode).isEmpty then [] else [""]) a.declaration
  definition : IsEnclosed s!"@implementation {a.name}"
    ("" :: (definitionGroups mode context).flatMap (· ++ [""])) a.definition
  length_memberLines : ∀ member ∈ context.members, member.value.isColor = false →
    (memberLines mode context.name member).length = 1

theorem length_memberLines {member : NamedMember Entry} (h : member.value.isColor = false) :
    (memberLines mode name member).length = 1 := by
  rw [memberLines]
  cases hvalue : member.value with
  | identifier value => rfl
  | color color => simp [hvalue, Entry.isColor] at h

namespace Rendered

variable (h : Rendered config context unit)

include h

theorem isEnclosed_declarationBody (mode : TargetMode) (hname : isIdentifier name = true) :
    IsEnclosed s!"@interface {name} : NSObject"
      ("" :: (interface context mode).map Item.declaration ++
        if (interface context mode).isEmpty then [] else [""])
      (declarationBody language name ((interface context mode).map Item.declaration)) := by
  have hfront : IsLine "@interface " := by decide
  have hopening := (hfront.append (isLine_of_isIdentifier hname)).append
    (by decide : IsLine " : NSObject")
  have hitem : ∀ l ∈ (interface context mode).map Item.declaration, IsUnmarked l := by
    intro l hl
    obtain ⟨item, hitem, rfl⟩ := List.mem_map.1 hl
    exact h.isUnmarked_declaration hitem
  have hflat : ((interface context mode).map Item.declaration).flatMap lines =
      (interface context mode).map Item.declaration := by
    apply flatMap_lines
    intro l hl
    obtain ⟨item, -, rfl⟩ := List.mem_map.1 hl
    exact ⟨(hitem _ hl).1, item.declaration_ne_empty⟩
  rw [declarationBody_eq, declarationLines, hflat, List.isEmpty_map]
  refine isEnclosed_join hopening fun l hl ↦ ?_
  rw [List.mem_append, List.mem_cons] at hl
  rcases hl with (rfl | hl) | hl
  · decide
  · exact hitem l hl
  · split at hl
    · cases hl
    · obtain rfl := List.mem_singleton.1 hl
      decide

theorem isEnclosed_definitionBody (mode : TargetMode) (hname : isIdentifier name = true) :
    IsEnclosed s!"@implementation {name}"
      ("" :: (definitionGroups mode context).flatMap (· ++ [""]))
      (definitionBody language name (definitionTexts mode context)) := by
  have hfront : IsLine "@implementation " := by decide
  have hopening := hfront.append (isLine_of_isIdentifier hname)
  have hflat : (definitionTexts mode context).flatMap (lines · ++ [""]) =
      (definitionGroups mode context).flatMap (· ++ [""]) := by
    rw [← h.map_lines_definitionTexts, List.flatMap_map]
  rw [definitionBody_eq, definitionLines, hflat]
  refine isEnclosed_join hopening fun l hl ↦ ?_
  rw [List.mem_cons, List.mem_flatMap] at hl
  rcases hl with rfl | ⟨group, hgroup, hl⟩
  · decide
  · rw [List.mem_append, List.mem_singleton] at hl
    rcases hl with hl | rfl
    · exact h.isUnmarked_of_mem_definitionGroups hgroup l hl
    · decide

theorem encloses (mode : TargetMode) (hname : isIdentifier name = true) :
    ∃ a, assembleUnit engine mode unit name = .ok a ∧ a.name = name ∧ Encloses mode context a := by
  obtain ⟨imports, rfl⟩ := h.unit_eq
  have hassemble : assembleUnit engine mode (unitOf context imports) name = .ok {
      name
      imports := (unitOf context imports).imports
      declaration := declarationBody language name ((interface context mode).map Item.declaration)
      definition := definitionBody language name (definitionTexts mode context) } :=
    assembleUnit_eq_ok_iff.2 ⟨_, _, mapM_declarations mode context name,
      mapM_definitions mode context name, rfl⟩
  exact ⟨_, hassemble, rfl, h.isEnclosed_declarationBody mode hname,
    h.isEnclosed_definitionBody mode hname, fun _ _ ↦ length_memberLines⟩

end Rendered

/-- No value, key or colour gets out of the class that it belongs to: between the first and the
last line of a body no line is a marker, and every text is one line. -/
theorem markers_enclose {models : List (UnitModel Entry)}
    (h : populate naming renderer config models = .ok units) :
    ∃ contexts, List.Forall₂ (Population.Names naming config) models contexts ∧
      List.Forall₂ (fun context unit ↦ ∀ (mode : TargetMode) (other : RunConfig) (name : String),
        IsCanonical naming other unit name →
          ∃ a, assembleUnit engine mode unit name = .ok a ∧ a.name = name ∧
            Encloses mode context a) contexts units := by
  obtain ⟨contexts, hnames, hrendered⟩ := exists_rendered_of_populate h
  refine ⟨contexts, hnames, hrendered.imp fun context unit hunit mode other name hname ↦ ?_⟩
  exact hunit.encloses mode (NamingPolicy.isIdentifier_typeName rfl hname)

/-- A value that would close its class if it were not escaped. -/
def breakout : List (UnitModel Entry) :=
  [{ key := "brand", members := [⟨"title", .identifier "\";\r\n@end\n@interface X"⟩] }]

theorem markers_enclose_breakout : ∃ unit a,
    populate naming renderer paletteConfig breakout = .ok [unit] ∧
      assembleUnit engine .modern unit "Brand" = .ok a ∧
      ∃ inner, IsEnclosed "@implementation Brand" inner a.definition := by
  have hkeys : (populate naming renderer paletteConfig breakout).toOption.map
      (·.map SourceUnit.key) = some ["brand"] := by decide
  obtain ⟨units, hunits, hkey⟩ := Option.map_eq_some_iff.1 hkeys
  have hunits := Except.toOption_eq_some_iff.1 hunits
  obtain ⟨unit, rfl, hbrand⟩ := List.map_eq_singleton_iff.1 hkey
  obtain ⟨contexts, -, henclosed⟩ := markers_enclose hunits
  obtain ⟨context, -, henclosed⟩ := henclosed.exists_of_mem_right (List.mem_singleton_self unit)
  have hname : IsCanonical naming paletteConfig unit "Brand" := by
    rw [IsCanonical, hbrand]
    rfl
  obtain ⟨a, hassemble, hname, hencloses⟩ := henclosed .modern paletteConfig "Brand" hname
  have hdefinition := hencloses.definition
  rw [hname] at hdefinition
  exact ⟨unit, a, hunits, hassemble, _, hdefinition⟩

end PairedSource.ObjectiveC
