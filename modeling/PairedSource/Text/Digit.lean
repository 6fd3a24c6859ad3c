namespace PairedSource.Text

def hexDigit? (c : Char) : Option Nat :=
  if c.isDigit then some (c.toNat - '0'.toNat)
  else if 'a' ≤ c ∧ c ≤ 'f' then some (c.toNat - 'a'.toNat + 10)
  else if 'A' ≤ c ∧ c ≤ 'F' then some (c.toNat - 'A'.toNat + 10)
  else none

def number? (base : Nat) (cs : List Char) : Option Nat :=
  cs.foldlM (fun n c ↦ (hexDigit? c).bind fun d ↦ if d < base then some (base * n + d) else none) 0

end PairedSource.Text
