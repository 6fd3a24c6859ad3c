namespace PairedSource

inductive ArtifactKind where
  | declaration
  | definition
  deriving Repr, DecidableEq

def ArtifactKind.text : ArtifactKind → String
  | .declaration => "declaration"
  | .definition => "definition"

structure Artifact where
  kind : ArtifactKind
  fileName : String
  content : String
  deriving Repr, DecidableEq

structure ArtifactPair where
  name : String
  units : List String
  declaration : Option Artifact
  definition : Artifact
  deriving Repr, DecidableEq

def ArtifactPair.artifacts (pair : ArtifactPair) : List Artifact :=
  pair.declaration.toList ++ [pair.definition]

structure Generation where
  aggregate : Bool
  pairs : List ArtifactPair
  deriving Repr, DecidableEq

namespace Generation

variable (generation : Generation)

def artifacts : List Artifact :=
  generation.pairs.flatMap ArtifactPair.artifacts

def unitNames : List String :=
  generation.pairs.flatMap ArtifactPair.units

def artifact? (fileName : String) : Option Artifact :=
  generation.artifacts.find? (·.fileName == fileName)

end Generation

end PairedSource
