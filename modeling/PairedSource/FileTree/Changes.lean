import PairedSource.FileTree

namespace PairedSource

namespace Node

def content? : Node → Option ByteArray
  | .file content => some content
  | .directory _ => none

mutual

def listing : Node → List (Location × Option ByteArray)
  | .file _ => []
  | .directory children => listingOf children

def listingOf : List (String × Node) → List (Location × Option ByteArray)
  | [] => []
  | (name, child) :: rest =>
    ([name], child.content?) :: child.listing.map (fun (l, c) ↦ (name :: l, c)) ++ listingOf rest

end

/-- What stands below a node and not, or with other bytes, below an earlier one. -/
def changes (before after : Node) : List (Location × Option ByteArray) :=
  after.listing.filter fun (location, content) ↦
    (before.find? location).map content? != some content

def removals (before after : Node) : List Location :=
  (before.listing.map Prod.fst).filter fun location ↦ (after.find? location).isNone

end Node

end PairedSource
