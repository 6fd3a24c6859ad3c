import PairedSource.CodeBuilder
import PairedSource.Naming

namespace PairedSource

/-- What the outer shape of a pair of files looks like in one language. -/
structure Language where
  name : String
  declarationExtension : String
  definitionExtension : String
  lineComment : String
  indent : Indent
  importLine : String → String
  localImportLine : String → String
  openDeclaration : String → String
  closeDeclaration : String → String
  openDefinition : String → String
  closeDefinition : String → String
  naming : NamingPolicy

namespace Language

variable (language : Language)

def declarationFile (stem : String) : String :=
  stem ++ "." ++ language.declarationExtension

def definitionFile (stem : String) : String :=
  stem ++ "." ++ language.definitionExtension

end Language

end PairedSource
