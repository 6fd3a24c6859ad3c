namespace PairedSource.ObjectiveC.Literal

def isControl (c : Char) : Bool :=
  c.toNat < 0x20 || (0x7f ≤ c.toNat && c.toNat < 0xa0)

def octal (byte : UInt8) : List Char :=
  let digit (n : Nat) : Char := Char.ofNat ('0'.toNat + n % 8)
  ['\\', digit (byte.toNat / 64), digit (byte.toNat / 8), digit byte.toNat]

/-- One character inside a string literal. Control characters without a short form become the
octal forms of their UTF-8 bytes; all of these have three digits, so no digit after them counts. -/
def escapeChar (c : Char) : List Char :=
  match c with
  | '"' => ['\\', '"']
  | '\\' => ['\\', '\\']
  | '\n' => ['\\', 'n']
  | '\r' => ['\\', 'r']
  | '\t' => ['\\', 't']
  | c => if isControl c then (String.utf8EncodeChar c).flatMap octal else [c]

def escape (s : String) : String :=
  String.ofList (s.toList.flatMap escapeChar)

end PairedSource.ObjectiveC.Literal
