import PairedSource.Toml.Token

namespace PairedSource.Toml

structure Lexeme where
  style : Option StringStyle
  text : List Char
  span : Span
  deriving Repr

structure KeyPath where
  parents : List Lexeme
  last : Lexeme
  deriving Repr

/-- A value as it was written, with brackets paired and nothing decoded. -/
inductive Written where
  | scalar (lexeme : Lexeme)
  | array (items : List Written) (span : Span)
  | table (entries : List (KeyPath × Written)) (span : Span)

inductive Statement where
  | assignment (path : KeyPath) (value : Written)
  | table (path : KeyPath) (span : Span)
  | arrayElement (path : KeyPath) (span : Span)

namespace Token

def style? (token : Token) : Option StringStyle :=
  match token.kind with
  | .string style => some style
  | _ => none

def lexeme (token : Token) : Lexeme :=
  ⟨token.style?, token.text, token.span⟩

end Token

end PairedSource.Toml
