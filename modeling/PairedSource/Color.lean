import PairedSource.Text.Blank
import PairedSource.Text.Digit

namespace PairedSource

structure Color where
  red : UInt8
  green : UInt8
  blue : UInt8
  alpha : UInt8
  deriving Repr, DecidableEq

namespace Color

def channel? (high low : Char) : Option UInt8 := do
  let h ← Text.hexDigit? high
  let l ← Text.hexDigit? low
  return UInt8.ofNat (16 * h + l)

/-- Reads `#RRGGBB` or `#RRGGBBAA` with white space around it. Without alpha the colour is
opaque. -/
def read? (s : String) : Option Color :=
  match Text.dropAround Text.isBlank s.toList with
  | ['#', r₁, r₂, g₁, g₂, b₁, b₂] => do
    return ⟨← channel? r₁ r₂, ← channel? g₁ g₂, ← channel? b₁ b₂, 255⟩
  | ['#', r₁, r₂, g₁, g₂, b₁, b₂, a₁, a₂] => do
    return ⟨← channel? r₁ r₂, ← channel? g₁ g₂, ← channel? b₁ b₂, ← channel? a₁ a₂⟩
  | _ => none

def refusal (s : String) : String :=
  s!"invalid colour '{s}', expected #RRGGBB or #RRGGBBAA"

def fraction (channel : UInt8) : String :=
  let thousandths := (2000 * channel.toNat + 255) / 510
  let places := Nat.toDigits 10 (thousandths % 1000)
  toString (thousandths / 1000) ++ "." ++
    String.ofList (List.replicate (3 - places.length) '0' ++ places)

def components (color : Color) : List String :=
  [color.red, color.green, color.blue, color.alpha].map fraction

end Color

end PairedSource
