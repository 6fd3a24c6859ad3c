namespace PairedSource

/-- A double-precision number. A finite one is its significand times two to its exponent. -/
inductive Binary64 where
  | finite (negative : Bool) (significand : Nat) (exponent : Int)
  | infinite (negative : Bool)
  | nan
  deriving Repr, DecidableEq

namespace Binary64

def significandLimit : Nat := Nat.pow 2 53

def roundHalfEven (numerator denominator : Nat) : Nat :=
  let quotient := numerator / denominator
  let twice := 2 * (numerator % denominator)
  if twice > denominator || (twice == denominator && quotient % 2 == 1) then quotient + 1
  else quotient

def scale (base : Nat) (exponent : Int) (quotient : Nat × Nat) : Nat × Nat :=
  (quotient.1 * base.pow exponent.toNat, quotient.2 * base.pow (-exponent).toNat)

/-- The least exponent under which the rounded significand has at most 53 bits, though not below
that of the smallest numbers. -/
def exponentOf (quotient : Nat × Nat) : Int :=
  let guess : Int := quotient.1.log2 - quotient.2.log2 - 53
  let (n, d) := scale 2 (-guess) quotient
  max (-1074) (if n / d < significandLimit then guess else guess + 1)

def ofQuotient? (negative : Bool) (quotient : Nat × Nat) : Option Binary64 :=
  let exponent := exponentOf quotient
  let (n, d) := scale 2 (-exponent) quotient
  let rounded := roundHalfEven n d
  let (significand, exponent) :=
    if rounded = significandLimit then (significandLimit / 2, exponent + 1)
    else (rounded, exponent)
  if exponent > 971 then none else some (.finite negative significand exponent)

/-- The double nearest to a decimal, its digits times ten to the exponent. -/
def ofDecimal? (negative : Bool) (digits : Nat) (exponent : Int) : Option Binary64 :=
  let magnitude : Int := (Nat.toDigits 10 digits).length + exponent
  if digits = 0 ∨ magnitude < -330 then some (.finite negative 0 (-1074))
  else if magnitude > 310 then none
  else ofQuotient? negative (scale 10 exponent (digits, 1))

end Binary64

end PairedSource
