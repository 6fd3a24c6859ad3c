import PairedSource.Binary64

namespace PairedSource.Binary64.Decimal

variable (significand : Nat) (exponent : Int)

def quotient : Nat × Nat :=
  scale 2 exponent (significand, 1)

def pointPosition : Int :=
  let (n, d) := quotient significand exponent
  if d ≤ n then (Nat.toDigits 10 (n / d)).length
  else
    match (List.range 330).find? fun zeros ↦ d ≤ n * Nat.pow 10 (zeros + 1) with
    | some zeros => -zeros
    | none => -330

/-- Whether a decimal, its digits times ten to `power`, is nearer to this double than to any other.
A decimal halfway to the next double counts when the significand is even. -/
def readsBack (digits : Nat) (power : Int) : Bool :=
  let (n, d) := scale 10 power (digits, 1)
  let below := if significand = significandLimit / 2 ∧ exponent > -1074 then 1 else 2
  let (lowN, lowD) := scale 2 (exponent - 2) (4 * significand - below, 1)
  let (highN, highD) := scale 2 (exponent - 2) (4 * significand + 2, 1)
  let fromLow := compare (n * lowD) (lowN * d)
  let toHigh := compare (n * highD) (highN * d)
  let even := significand % 2 == 0
  (fromLow == .gt || (even && fromLow == .eq)) && (toHigh == .lt || (even && toHigh == .eq))

def withPlaces? (places : Nat) : Option (Nat × Int) :=
  let power := pointPosition significand exponent - places
  let (n, d) := scale 10 (-power) (quotient significand exponent)
  let low := n / d
  let high := low + 1
  match readsBack significand exponent low power, readsBack significand exponent high power with
  | true, false => some (low, power)
  | false, true => some (high, power)
  | true, true => if 2 * (n % d) < d then some (low, power) else some (high, power)
  | false, false => none

/-- The fewest digits that read back, and the power of ten that they count. -/
def shortest : Nat × Int :=
  ((List.range 17).findSome? fun places ↦ withPlaces? significand exponent (places + 1)).getD
    (significand, exponent)

def positional (digits : Nat) (power : Int) : String :=
  let written := Nat.toDigits 10 digits
  let whole := written.length + power
  let parts : List Char × List Char :=
    if whole ≤ 0 then (['0'], List.replicate (-whole).toNat '0' ++ written)
    else if power ≥ 0 then (written ++ List.replicate power.toNat '0', ['0'])
    else written.splitAt whole.toNat
  String.ofList (parts.1 ++ '.' :: parts.2)

def dropZeros : Nat → Nat → Int → Nat × Int
  | 0, digits, power => (digits, power)
  | steps + 1, digits, power =>
    if digits ≠ 0 ∧ digits % 10 = 0 then dropZeros steps (digits / 10) (power + 1)
    else (digits, power)

def text : Binary64 → String
  | .nan => "NaN"
  | .infinite negative => if negative then "-inf" else "inf"
  | .finite negative significand exponent =>
    let (digits, power) := if significand = 0 then (0, 0) else shortest significand exponent
    let (digits, power) := dropZeros 17 digits power
    (if negative then "-" else "") ++ positional digits power

end PairedSource.Binary64.Decimal
