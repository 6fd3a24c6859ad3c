import PairedSource.Text.Quoted.Table

namespace PairedSource.Text.Quoted

/-- Whether a sorted table of disjoint ranges covers `n`, by halving. -/
def covers (ranges : Array (Nat × Nat)) (n : Nat) : Bool :=
  go 0 ranges.size
where
  go (low high : Nat) : Bool :=
    if low < high then
      let middle := (low + high) / 2
      match ranges[middle]? with
      | none => false
      | some (first, last) =>
        if n < first then go low middle
        else if last < n then go (middle + 1) high
        else true
    else false
  termination_by high - low

def isVisible (c : Char) : Bool :=
  if c.toNat < 0x7f then 0x20 ≤ c.toNat else !covers hiddenRanges c.toNat

def hexDigits (n : Nat) : List Char :=
  Nat.toDigits 16 n

def escape (c : Char) : List Char :=
  match c with
  | '\x00' => ['\\', '0']
  | '\t' => ['\\', 't']
  | '\r' => ['\\', 'r']
  | '\n' => ['\\', 'n']
  | '"' => ['\\', '"']
  | '\\' => ['\\', '\\']
  | c => if isVisible c then [c] else ['\\', 'u', '{'] ++ hexDigits c.toNat ++ ['}']

end PairedSource.Text.Quoted

namespace PairedSource.Text

/-- A text in double quotes, on one line: quotes, backslashes and what does not show are escaped. -/
def quoted (s : String) : String :=
  String.ofList ('"' :: s.toList.flatMap Quoted.escape ++ ['"'])

end PairedSource.Text
