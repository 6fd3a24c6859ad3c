import PairedSource.Identifier
import PairedSource.Text.Blank

namespace PairedSource

inductive Rejection where
  | empty
  | noIdentifierCharacters
  | reserved (word : String)
  | leadingDigit (name : String)
  | notAnIdentifier
  deriving Repr, DecidableEq

def Rejection.message : Rejection → String
  | .empty => "key is empty"
  | .noIdentifierCharacters => "key contains no letters or digits"
  | .reserved word => s!"'{word}' is a reserved word"
  | .leadingDigit name => s!"'{name}' would start with a digit"
  | .notAnIdentifier => "not a valid identifier"

/-- How a language makes names from free-form keys, and the words it keeps for itself. -/
structure NamingPolicy where
  keyToType : String → String
  keyToMember : String → String
  reservedWords : List String

namespace NamingPolicy

variable (policy : NamingPolicy)

def isReserved (word : String) : Bool :=
  policy.reservedWords.contains word

def checkPrefix (namePrefix : String) : Except Rejection Unit :=
  if namePrefix.isEmpty then .ok ⟨⟩
  else if !Identifier.isIdentifier namePrefix then .error .notAnIdentifier
  else if policy.isReserved namePrefix then .error (.reserved namePrefix)
  else .ok ⟨⟩

def derive (key : String) (casing : String → String) : Except Rejection String :=
  let trimmed := Text.trim key
  if trimmed.isEmpty then .error .empty
  else if policy.isReserved trimmed then .error (.reserved trimmed)
  else if (Identifier.words trimmed).isEmpty then .error .noIdentifierCharacters
  else .ok (casing trimmed)

def checkDerived (name : String) : Except Rejection String :=
  if (name.toList.head?.any Char.isDigit) then .error (.leadingDigit name)
  else if policy.isReserved name then .error (.reserved name)
  else .ok name

def typeName (key namePrefix : String) : Except Rejection String := do
  policy.checkPrefix namePrefix
  let name ← policy.derive key policy.keyToType
  policy.checkDerived (namePrefix ++ name)

def memberName (key : String) : Except Rejection String := do
  let name ← policy.derive key policy.keyToMember
  policy.checkDerived name

end NamingPolicy

end PairedSource
