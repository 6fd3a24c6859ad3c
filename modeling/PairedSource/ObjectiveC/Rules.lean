import PairedSource.CodeBuilder
import PairedSource.RuleTable

namespace PairedSource.ObjectiveC

def colorAccessor : String := "color-accessor"

def allColorsDeclaration : String := "all-colors-declaration"

def allColorsDefinition : String := "all-colors-definition"

def colorMethod (initializer : String) (c : Construct) : String :=
  let start : CodeBuilder := {}
  ((start.line s!"+ (UIColor *){c.argAt 0}").block "\x7b" "\x7d" fun b ↦
    b.line (s!"return [UIColor {initializer}:{c.argAt 1} green:{c.argAt 2} " ++
      s!"blue:{c.argAt 3} alpha:{c.argAt 4}];")).text

/-- Message sends to the class, with a comma after each but the last. -/
def selfCalls : List String → List String
  | [] => []
  | [method] => [s!"[self {method}]"]
  | method :: rest => s!"[self {method}]," :: selfCalls rest

def allColorsMethod (returnType : String) (c : Construct) : String :=
  let start : CodeBuilder := {}
  ((start.line s!"+ ({returnType}){c.argAt 0}").block "\x7b" "\x7d" fun b ↦
    b.block "return @[" "];" fun b ↦ b.each (selfCalls (c.args.drop 1)) CodeBuilder.line).text

/-- Wide-gamut colours and typed arrays where the target has them, plain ones on the legacy
target. -/
def rules : RuleTable :=
  let table : RuleTable := {}
  (((((table.insert colorAccessor .modern (colorMethod "colorWithDisplayP3Red")).insert
    colorAccessor .legacy (colorMethod "colorWithRed")).insert
    allColorsDeclaration .modern fun c ↦ s!"+ (NSArray<UIColor *> *){c.argAt 0};").insert
    allColorsDeclaration .legacy fun c ↦ s!"+ (NSArray *){c.argAt 0};").insert
    allColorsDefinition .modern (allColorsMethod "NSArray<UIColor *> *")).insert
    allColorsDefinition .legacy (allColorsMethod "NSArray *")

end PairedSource.ObjectiveC
