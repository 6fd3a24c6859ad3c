import PairedSource.ObjectiveC
import PairedSource.Proofs.Naming.Members
import PairedSource.Proofs.Pointwise
import PairedSource.Proofs.Population.Contexts

namespace PairedSource.ObjectiveC

open Assembly

/-- What a unit offers to other code: a constant with its value, or a class method with its type. -/
inductive Item where
  | constant (name value : String)
  | method (type name : String)
  deriving Repr, DecidableEq

namespace Item

def name : Item → String
  | .constant name _ => name
  | .method _ name => name

def constant? : Item → Option String
  | .constant name _ => some name
  | .method .. => none

def method? : Item → Option String
  | .constant .. => none
  | .method _ name => some name

def declaration : Item → String
  | .constant name _ => s!"extern NSString *const {name};"
  | .method type name => s!"+ ({type}){name};"

theorem declaration_constant (name value : String) :
    (constant name value).declaration = "extern NSString *const " ++ name ++ ";" := rfl

theorem declaration_method (type name : String) :
    (method type name).declaration = "+ (" ++ type ++ ")" ++ name ++ ";" := rfl

theorem declaration_ne_empty (item : Item) : item.declaration ≠ "" := by
  cases item with
  | constant name value => simp [declaration_constant]
  | method type name => simp [declaration_method]

/-- A constant is defined by its literal, a method by code that starts with its signature. -/
def IsDefinedBy : Item → String → Prop
  | .constant name value, text =>
    text = s!"NSString *const {name} = @\"{Literal.escape value}\";"
  | .method type name, text => (Text.lines text).head? = some s!"+ ({type}){name}"

end Item

def itemOf (unit : String) (member : NamedMember Entry) : Item :=
  match member.value with
  | .identifier value => .constant (constantName unit member.name) value
  | .color _ => .method "UIColor *" (colorMethodName member.name)

def arrayType : TargetMode → String
  | .modern => "NSArray<UIColor *> *"
  | .legacy => "NSArray *"

variable (context : UnitContext Entry)

def memberItems : List Item :=
  context.members.map (itemOf context.name)

def hasColor : Bool :=
  context.members.any (·.value.isColor)

/-- The members of a unit in their order, and after them the method for all colours where there is
one to return. -/
def interface (mode : TargetMode) : List Item :=
  memberItems context ++ if hasColor context then [.method (arrayType mode) allColors] else []

theorem method?_memberItems :
    (memberItems context).filterMap Item.method? = colorMethods context := by
  rw [memberItems, colorMethods]
  induction context.members with
  | nil => rfl
  | cons member members ih =>
    rw [List.map_cons]
    cases hvalue : member.value with
    | identifier value =>
      have hitem : (itemOf context.name member).method? = none := by
        simp [itemOf, hvalue, Item.method?]
      rw [List.filterMap_cons_none hitem, ih,
        List.filter_cons_of_neg (by simp [hvalue, Entry.isColor])]
    | color color =>
      have hitem : (itemOf context.name member).method? = some (colorMethodName member.name) := by
        simp [itemOf, hvalue, Item.method?]
      rw [List.filterMap_cons_some hitem, ih,
        List.filter_cons_of_pos (by simp [hvalue, Entry.isColor]), List.map_cons]

theorem isEmpty_colorMethods : (colorMethods context).isEmpty = !hasColor context := by
  rw [colorMethods, hasColor, List.isEmpty_map]
  induction context.members with
  | nil => rfl
  | cons member members ih => cases h : member.value.isColor <;> simp_all

theorem constant?_interface (mode : TargetMode) :
    (interface context mode).filterMap Item.constant? =
      (memberItems context).filterMap Item.constant? := by
  rw [interface, List.filterMap_append]
  split <;> simp [Item.constant?]

def definitionOf (unit : String) (member : NamedMember Entry) : Fragment :=
  match member.value with
  | .identifier value => .text
      s!"NSString *const {constantName unit member.name} = @\"{Literal.escape value}\";"
  | .color color => .construct
      { kind := colorAccessor, args := colorMethodName member.name :: color.components }

def unitOf (imports : List String) : SourceUnit where
  key := context.key
  imports := (OrderedSet.insertAll ∅ imports).insert (frameworkImport context)
  declarations := (memberItems context).map (.text ·.declaration) ++
    if hasColor context then [.construct { kind := allColorsDeclaration, args := [allColors] }]
    else []
  definitions := context.members.map (definitionOf context.name) ++
    if hasColor context then
      [.construct { kind := allColorsDefinition, args := allColors :: colorMethods context }]
    else []
  symbols := OrderedSet.insertAll ∅ ((memberItems context).filterMap Item.constant?)

variable {context}

theorem renderMember_eq (member : NamedMember Entry) (unit : SourceUnit) :
    renderMember context member unit =
      { unit with
        declarations := unit.declarations ++ [.text (itemOf context.name member).declaration]
        definitions := unit.definitions ++ [definitionOf context.name member]
        symbols := unit.symbols.insertAll (itemOf context.name member).constant?.toList } := by
  rw [renderMember, itemOf, definitionOf]
  cases member.value <;> rfl

theorem foldlM_member (members : List (NamedMember Entry)) (index : Nat) (unit : SourceUnit) :
    (members.zipIdx index).foldlM
        (fun unit (member, index) ↦ renderer.member context index member unit) unit =
      .ok { unit with
        declarations := unit.declarations ++
          members.map (.text <| Item.declaration <| itemOf context.name ·)
        definitions := unit.definitions ++ members.map (definitionOf context.name)
        symbols := unit.symbols.insertAll
          ((members.map (itemOf context.name)).filterMap Item.constant?) } := by
  induction members generalizing index unit with
  | nil =>
    rw [List.map_nil, List.map_nil, List.map_nil, List.append_nil, List.append_nil]
    rfl
  | cons member members ih =>
    have hstep : renderer.member context index member unit =
        .ok (renderMember context member unit) := rfl
    have hsymbols : ((member :: members).map (itemOf context.name)).filterMap Item.constant? =
        (itemOf context.name member).constant?.toList ++
          (members.map (itemOf context.name)).filterMap Item.constant? := by
      rw [List.map_cons, List.filterMap_cons]
      cases (itemOf context.name member).constant? <;> rfl
    simp only [List.zipIdx_cons, List.foldlM_cons]
    rw [hstep, Except.ok_bind, renderMember_eq, ih, hsymbols, OrderedSet.insertAll_append,
      List.map_cons, List.map_cons, List.append_assoc, List.append_assoc, List.singleton_append,
      List.singleton_append]

theorem render_eq (imports : List String) :
    Population.render renderer context imports = .ok (unitOf context imports) := by
  have hstart : ∀ unit, renderer.start context unit =
      .ok (unit.addImport (frameworkImport context)) := fun _ ↦ rfl
  have hfinish : ∀ unit, renderer.finish context unit = .ok (renderAllColors context unit) :=
    fun _ ↦ rfl
  rw [Population.render, hstart, Except.ok_bind, foldlM_member, Except.ok_bind, hfinish,
    renderAllColors, isEmpty_colorMethods]
  cases hcolor : hasColor context with
  | false => simp [unitOf, memberItems, SourceUnit.addImport, hcolor]
  | true => simp [unitOf, memberItems, SourceUnit.addImport, SourceUnit.addDeclaration,
      SourceUnit.addDefinition, hcolor]

/-- A unit comes from a context with the names that the naming gives. -/
structure Rendered (config : RunConfig) (context : UnitContext Entry) (unit : SourceUnit) :
    Prop where
  typeName : naming.typeName context.key config.namePrefix = .ok context.name
  isMemberName : ∀ member ∈ context.members, Identifier.IsMemberName member.name
  nodup : (context.members.map NamedMember.name).Nodup
  unit_eq : ∃ imports, unit = unitOf context imports

theorem exists_rendered_of_populate {config : RunConfig} {models : List (UnitModel Entry)}
    {units : List SourceUnit} (h : populate naming renderer config models = .ok units) :
    ∃ contexts, List.Forall₂ (Population.Names naming config) models contexts ∧
      List.Forall₂ (Rendered config) contexts units := by
  refine List.exists_forall₂_between ((Population.forall₂_of_populate h).imp ?_)
  intro model unit hunit
  obtain ⟨context, hnames, hrender⟩ := hunit
  rw [render_eq] at hrender
  obtain rfl := Except.ok.inj hrender
  refine ⟨context, hnames, ?_, ?_, hnames.nodup, model.imports, rfl⟩
  · rw [hnames.key, hnames.name]
  · intro member hmember
    exact isMemberName_of_memberName (hnames.memberName member hmember)

end PairedSource.ObjectiveC
