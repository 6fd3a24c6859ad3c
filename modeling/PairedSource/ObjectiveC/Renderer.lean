import PairedSource.Entry
import PairedSource.Model
import PairedSource.ObjectiveC.Literal
import PairedSource.ObjectiveC.Rules
import PairedSource.Text.LetterCase

namespace PairedSource.ObjectiveC

def allColors : String := "allColors"

def colorMethodName (member : String) : String :=
  member ++ "Color"

def constantName (unit member : String) : String :=
  unit ++ Text.upperFirst member

def frameworkImport (context : UnitContext Entry) : String :=
  if context.members.any (·.value.isColor) then "<UIKit/UIKit.h>"
  else "<Foundation/Foundation.h>"

def renderIdentifier (constant value : String) (unit : SourceUnit) : SourceUnit :=
  ((unit.addDeclaration (.text s!"extern NSString *const {constant};")).addDefinition
    (.text s!"NSString *const {constant} = @\"{Literal.escape value}\";")).addSymbol constant

def renderColor (method : String) (color : Color) (unit : SourceUnit) : SourceUnit :=
  (unit.addDeclaration (.text s!"+ (UIColor *){method};")).addDefinition
    (.construct { kind := colorAccessor, args := method :: color.components })

def renderMember (context : UnitContext Entry) (member : NamedMember Entry) (unit : SourceUnit) :
    SourceUnit :=
  match member.value with
  | .identifier value => renderIdentifier (constantName context.name member.name) value unit
  | .color color => renderColor (colorMethodName member.name) color unit

def colorMethods (context : UnitContext Entry) : List String :=
  (context.members.filter (·.value.isColor)).map (colorMethodName ·.name)

def renderAllColors (context : UnitContext Entry) (unit : SourceUnit) : SourceUnit :=
  let methods := colorMethods context
  if methods.isEmpty then unit
  else
    (unit.addDeclaration
      (.construct { kind := allColorsDeclaration, args := [allColors] })).addDefinition
      (.construct { kind := allColorsDefinition, args := allColors :: methods })

/-- Text entries become constants, colours become class methods. -/
def renderer : Renderer Entry where
  start context unit := .ok (unit.addImport (frameworkImport context))
  member context _ member unit := .ok (renderMember context member unit)
  finish context unit := .ok (renderAllColors context unit)

end PairedSource.ObjectiveC
