import PairedSource.Toml.Token

namespace PairedSource.Toml

/-- What was read from the front of some tokens, and the tokens that are left. -/
structure Parsed (α : Type) (tokens : List Token) where
  value : α
  rest : List Token
  length_rest_le : rest.length ≤ tokens.length

namespace Parsed

variable {α β : Type} {tokens : List Token}

def map (f : α → β) (p : Parsed α tokens) : Parsed β tokens :=
  ⟨f p.value, p.rest, p.length_rest_le⟩

def after (token : Token) (p : Parsed α tokens) : Parsed α (token :: tokens) :=
  ⟨p.value, p.rest, Nat.le_succ_of_le p.length_rest_le⟩

def within {part : List Token} (p : Parsed α part) (h : part.length ≤ tokens.length) :
    Parsed α tokens :=
  ⟨p.value, p.rest, Nat.le_trans p.length_rest_le h⟩

def following (first : Parsed α tokens) (p : Parsed β first.rest) : Parsed β tokens :=
  p.within first.length_rest_le

end Parsed

end PairedSource.Toml
