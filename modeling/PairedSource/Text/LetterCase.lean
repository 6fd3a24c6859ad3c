import PairedSource.Text.LetterCase.Table

namespace PairedSource.Text.LetterCase

def inRuns (runs : List (Nat × Nat × Nat)) (n : Nat) : Bool :=
  runs.any fun (first, last, step) ↦ first ≤ n && n ≤ last && (n - first) % step == 0

/-- The image of a character outside ASCII under a case mapping given by its two tables. -/
def image (runs : List (Nat × Nat × Nat × Nat)) (several : List (Nat × List Nat)) (c : Char) :
    List Char :=
  let n := c.toNat
  match several.lookup n with
  | some image => image.map Char.ofNat
  | none =>
    match runs.find? fun (first, last, step, _) ↦
      first ≤ n && n ≤ last && (n - first) % step == 0 with
    | some (first, _, _, target) => [Char.ofNat (target + (n - first))]
    | none => [c]

end PairedSource.Text.LetterCase

namespace PairedSource.Text

open LetterCase

def isUppercase (c : Char) : Bool :=
  if c.toNat < 128 then c.isUpper else inRuns uppercaseRuns c.toNat

def isLowercase (c : Char) : Bool :=
  if c.toNat < 128 then c.isLower else inRuns lowercaseRuns c.toNat

def toUpper (c : Char) : List Char :=
  if c.toNat < 128 then [c.toUpper] else image toUpperRuns toUpperSeveral c

def toLower (c : Char) : List Char :=
  if c.toNat < 128 then [c.toLower] else image toLowerRuns toLowerSeveral c

def mapFirst (f : Char → List Char) : List Char → List Char
  | [] => []
  | c :: cs => f c ++ cs

def upperFirst (s : String) : String :=
  String.ofList (mapFirst toUpper s.toList)

def lowerFirst (s : String) : String :=
  String.ofList (mapFirst toLower s.toList)

end PairedSource.Text
