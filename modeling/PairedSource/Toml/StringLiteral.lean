import PairedSource.Text.Digit
import PairedSource.Toml.Token

namespace PairedSource.Toml

namespace StringLiteral

def dropEnd? (delimiter cs : List Char) : Option (List Char) :=
  if delimiter.isSuffixOf cs then some (cs.take (cs.length - delimiter.length)) else none

def body? (style : StringStyle) (cs : List Char) : Option (List Char) :=
  let delimiter := style.delimiter.toList
  if delimiter.isPrefixOf cs then dropEnd? delimiter (cs.drop delimiter.length) else none

/-- A line end at the start of a multi-line string does not belong to it. -/
def dropLineEnd : List Char → List Char
  | '\n' :: cs => cs
  | '\r' :: '\n' :: cs => cs
  | cs => cs

def isSpace (c : Char) : Bool :=
  Token.isBlank c || c == '\n'

def spaceLength : List Char → Nat
  | '\r' :: '\n' :: cs => 2 + spaceLength cs
  | c :: cs => if isSpace c then 1 + spaceLength cs else 0
  | [] => 0

def endsLine (cs : List Char) : Bool :=
  match cs.dropWhile Token.isBlank with
  | '\n' :: _ | '\r' :: '\n' :: _ => true
  | _ => false

def numbered (digits : Nat) (cs : List Char) : Except SyntaxError (List Char × Nat) :=
  match Text.number? 16 (cs.take digits) with
  | some n =>
    if digits ≤ cs.length ∧ n.isValidChar then .ok ([Char.ofNat n], digits)
    else .error .invalidUnicodeEscape
  | none => .error .invalidUnicodeEscape

/-- What a backslash before the given text stands for, and how much of the text belongs to it. -/
def escape (multiline : Bool) : List Char → Except SyntaxError (List Char × Nat)
  | 'b' :: _ => .ok (['\x08'], 1)
  | 't' :: _ => .ok (['\t'], 1)
  | 'n' :: _ => .ok (['\n'], 1)
  | 'f' :: _ => .ok (['\x0c'], 1)
  | 'r' :: _ => .ok (['\r'], 1)
  | 'e' :: _ => .ok (['\x1b'], 1)
  | '"' :: _ => .ok (['"'], 1)
  | '\\' :: _ => .ok (['\\'], 1)
  | 'x' :: cs => (numbered 2 cs).map fun (c, n) ↦ (c, n + 1)
  | 'u' :: cs => (numbered 4 cs).map fun (c, n) ↦ (c, n + 1)
  | 'U' :: cs => (numbered 8 cs).map fun (c, n) ↦ (c, n + 1)
  | cs => if multiline && endsLine cs then .ok ([], spaceLength cs) else .error .missingEscape

def isPlain (multiline : Bool) (c : Char) (rest : List Char) : Bool :=
  !Token.isControl c ||
    (multiline && (c == '\n' || (c == '\r' && rest.head? == some '\n')))

/-- Decodes the body of a string; `skip` characters at its start are already decoded. -/
def decodeBody (style : StringStyle) (multiline escapes : Bool) (skip : Nat) :
    List Char → Except SyntaxError (List Char)
  | [] => .ok []
  | c :: cs =>
    match skip with
    | skip + 1 => decodeBody style multiline escapes skip cs
    | 0 =>
      if escapes && c == '\\' then do
        let (decoded, length) ← escape multiline cs
        return decoded ++ (← decodeBody style multiline escapes length cs)
      else if isPlain multiline c cs then do
        return c :: (← decodeBody style multiline escapes 0 cs)
      else .error (.invalidCharacter style)

end StringLiteral

open StringLiteral

def StringStyle.decode (style : StringStyle) (cs : List Char) : Except SyntaxError String :=
  match body? style cs with
  | none => .error (.unclosedString style)
  | some body =>
    String.ofList <$> match style with
    | .basic => decodeBody style false true 0 body
    | .literal => decodeBody style false false 0 body
    | .multilineBasic => decodeBody style true true 0 (dropLineEnd body)
    | .multilineLiteral => decodeBody style true false 0 (dropLineEnd body)

end PairedSource.Toml
