import PairedSource.Language
import PairedSource.Model

namespace PairedSource

namespace Population

variable {μ : Type}

def nameMembers (naming : NamingPolicy) (unit : String) (named : List (NamedMember μ)) :
    List (Member μ) → Except Error (List (NamedMember μ))
  | [] => .ok named
  | member :: rest =>
    match naming.memberName member.key with
    | .error reason => .error (.invalidKey unit member.key reason)
    | .ok name =>
      match named.find? (·.name == name) with
      | some first => .error (.duplicateMemberName unit name first.key member.key)
      | none => nameMembers naming unit (named ++ [{ member with name }]) rest

def context (naming : NamingPolicy) (config : RunConfig) (model : UnitModel μ) :
    Except Error (UnitContext μ) := do
  let name ← (naming.typeName model.key config.namePrefix).mapError
    (.invalidKey model.key model.key)
  let members ← nameMembers naming model.key [] model.members
  return { key := model.key, name, config, members }

/-- Lets a renderer fill the unit of one model, which starts with the model's own imports. -/
def render (renderer : Renderer μ) (context : UnitContext μ) (imports : List String) :
    Except Fault SourceUnit := do
  let unit : SourceUnit := { key := context.key, imports := OrderedSet.insertAll ∅ imports }
  let unit ← renderer.start context unit
  let unit ← context.members.zipIdx.foldlM
    (fun unit (member, index) ↦ renderer.member context index member unit) unit
  renderer.finish context unit

def populateUnit (naming : NamingPolicy) (renderer : Renderer μ) (config : RunConfig)
    (model : UnitModel μ) : Except Fault SourceUnit := do
  let context ← (context naming config model).mapError .error
  render renderer context model.imports

end Population

def checkPrefix (naming : NamingPolicy) (config : RunConfig) : Except Error Unit :=
  (naming.checkPrefix config.namePrefix).mapError (.invalidPrefix config.namePrefix)

def populate {μ : Type} (naming : NamingPolicy) (renderer : Renderer μ) (config : RunConfig)
    (models : List (UnitModel μ)) : Except Fault (List SourceUnit) := do
  (checkPrefix naming config).mapError .error
  models.mapM (Population.populateUnit naming renderer config)

end PairedSource
