import PairedSource.Text.Split
import PairedSource.Toml.Error
import PairedSource.Toml.Value

namespace PairedSource.Toml.Scalar

def isHexDigit (c : Char) : Bool :=
  (Text.hexDigit? c).isSome

/-- Puts the runs between underscores together. A run behind an underscore starts with a digit, and
a run before one ends with a digit. -/
def joinRuns? (isDigit : Char → Bool) : List (List Char) → Option (List Char)
  | run :: next :: runs =>
    if run.getLast?.any isDigit && next.head?.any isDigit then
      (joinRuns? isDigit (next :: runs)).map (run ++ ·)
    else none
  | [run] => some run
  | [] => some []

def dropUnderscores? (isDigit : Char → Bool) (cs : List Char) : Option (List Char) :=
  joinRuns? isDigit (Text.pieces (· == '_') cs)

def signed (negative : Bool) (n : Nat) : Int :=
  if negative then -n else n

def splitSign : List Char → Option Bool × List Char
  | '+' :: cs => (some false, cs)
  | '-' :: cs => (some true, cs)
  | cs => (none, cs)

def integer (base : Nat) (negative : Bool) (digits : List Char) : Value :=
  match digits, Text.number? base digits with
  | _ :: _, some n =>
    let n := signed negative n
    if fitsSigned 128 n || fitsUnsigned 128 n then .integer n else .outOfRange .integer
  | _, _ => .outOfRange .integer

def based (base : Nat) (baseName : String) (cs : List Char) : Except SyntaxError Value :=
  if cs.all fun c ↦ c == '_' || (Text.hexDigit? c).any (· < base) then
    match dropUnderscores? isHexDigit cs with
    | some digits => .ok (integer base false digits)
    | none => .error .misplacedUnderscore
  else .error (.invalidDigit baseName)

def decimal (cs : List Char) : Except SyntaxError Value :=
  match (splitSign cs).2 with
  | '0' :: _ :: _ => .error .leadingZero
  | _ =>
    match dropUnderscores? isHexDigit cs with
    | some kept =>
      let (sign, digits) := splitSign kept
      .ok (integer 10 (sign == some true) digits)
    | none => .error .misplacedUnderscore

def isExponentMark (c : Char) : Bool :=
  c == 'e' || c == 'E'

/-- The digits of a run of digits and underscores that a text starts with, and the rest. `part` is
what the run is called where it has no digit. -/
def digitRun (part : String) (cs : List Char) : Except SyntaxError (List Char × List Char) :=
  let run := cs.takeWhile fun c ↦ c.isDigit || c == '_'
  let digits := run.filter Char.isDigit
  if digits.isEmpty then .error (.missingDigits part) else .ok (digits, cs.drop run.length)

def wholeRun (cs : List Char) : Except SyntaxError (List Char × List Char) := do
  let (digits, rest) ← digitRun "mantissa" cs
  if cs.head? == some '0' && digits.length > 1 then throw .leadingZero
  return (digits, rest)

def placesRun : List Char → Except SyntaxError (List Char × List Char)
  | '.' :: cs => digitRun "fraction" cs
  | cs => .ok ([], cs)

def exponentRun : List Char → Except SyntaxError (Int × List Char)
  | [] => .ok (0, [])
  | c :: cs =>
    if isExponentMark c then do
      let (sign, cs) := splitSign cs
      let (digits, rest) ← digitRun "exponent" cs
      return (signed (sign == some true) ((Text.number? 10 digits).getD 0), rest)
    else .ok (0, c :: cs)

def float (cs : List Char) : Except SyntaxError Value := do
  let (sign, unsigned) := splitSign cs
  let (whole, rest) ← wholeRun unsigned
  let (places, rest) ← placesRun rest
  let (exponent, rest) ← exponentRun rest
  if !rest.isEmpty then throw .afterFloat
  if (dropUnderscores? Char.isDigit cs).isNone then throw .misplacedUnderscore
  let digits := (Text.number? 10 (whole ++ places)).getD 0
  match Binary64.ofDecimal? (sign == some true) digits (exponent - places.length) with
  | some x => return .float x
  | none => return .outOfRange .float

def dateTime (cs : List Char) : Except SyntaxError Value :=
  match DateTime.read? cs with
  | some dateTime => .ok (.dateTime dateTime)
  | none => .error .invalidDateTime

/-- A number or a date or time. Dates have a hyphen and times a colon behind their first digits. -/
def numeric (cs : List Char) : Except SyntaxError Value :=
  let rest := (splitSign cs).2.dropWhile Char.isDigit
  match rest with
  | '-' :: _ | ':' :: _ => dateTime cs
  | _ =>
    if rest.contains ' ' then .error .unquotedText
    else if rest.any fun c ↦ c == '.' || isExponentMark c then float cs
    else match rest with
    | [] | '_' :: _ => decimal cs
    | _ => .error .unquotedText

def decode (cs : List Char) : Except SyntaxError Value :=
  let (sign, unsigned) := splitSign cs
  if cs == "true".toList then .ok (.boolean true)
  else if cs == "false".toList then .ok (.boolean false)
  else if unsigned == "inf".toList then .ok (.float (.infinite (sign == some true)))
  else if unsigned == "nan".toList then .ok (.float .nan)
  else match sign, unsigned with
  | none, '0' :: 'x' :: digits => based 16 "hexadecimal" digits
  | none, '0' :: 'o' :: digits => based 8 "octal" digits
  | none, '0' :: 'b' :: digits => based 2 "binary" digits
  | _, c :: _ =>
    if c.isDigit || c == '_' then numeric cs
    else if c == '.' then .error (.missingDigits "mantissa")
    else .error .unquotedText
  | _, [] => .error .unquotedText

end PairedSource.Toml.Scalar
