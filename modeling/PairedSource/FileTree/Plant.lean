import PairedSource.FileTree

namespace PairedSource.Node

/-- Changes what stands at a location. What is missing above it becomes a directory, and so does a
file that is in the way. -/
def plant (change : Node → Node) : Location → Node → Node
  | [], node => change node
  | name :: rest, node =>
    .directory (Association.alter name
      (fun child ↦ plant change rest (child.getD (.directory []))) node.children)

def uproot : Location → Node → Node
  | [], node => node
  | [name], node => .directory (Association.erase name node.children)
  | name :: rest, node =>
    match node.children.lookup name with
    | none => node
    | some child => .directory (Association.alter name (fun _ ↦ uproot rest child) node.children)

end PairedSource.Node
