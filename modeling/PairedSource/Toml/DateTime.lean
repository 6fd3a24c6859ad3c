import PairedSource.Text.Digit

namespace PairedSource.Toml

structure Date where
  year : Nat
  month : Nat
  day : Nat
  deriving Repr, DecidableEq

structure TimeOfDay where
  hour : Nat
  minute : Nat
  second : Nat := 0
  nanosecond : Nat := 0
  deriving Repr, DecidableEq

inductive TimeOffset where
  | utc
  | shifted (west : Bool) (hour minute : Nat)
  deriving Repr, DecidableEq

inductive DateTime where
  | date (date : Date)
  | time (time : TimeOfDay)
  | moment (date : Date) (time : TimeOfDay) (offset : Option TimeOffset)
  deriving Repr, DecidableEq

namespace Date

def isLeap (year : Nat) : Bool :=
  year % 4 == 0 && (year % 100 != 0 || year % 400 == 0)

def daysInMonth (year : Nat) : Nat → Nat
  | 2 => if isLeap year then 29 else 28
  | 4 | 6 | 9 | 11 => 30
  | _ => 31

def isValid (date : Date) : Bool :=
  1 ≤ date.month && date.month ≤ 12 && 1 ≤ date.day && date.day ≤ daysInMonth date.year date.month

end Date

def TimeOfDay.isValid (time : TimeOfDay) : Bool :=
  time.hour ≤ 23 && time.minute ≤ 59 && time.second ≤ 60

namespace DateTime

def digits? (count : Nat) (cs : List Char) : Option (Nat × List Char) :=
  if count ≤ cs.length ∧ (cs.take count).all Char.isDigit then
    (Text.number? 10 (cs.take count)).map fun n ↦ (n, cs.drop count)
  else none

def skip? (c : Char) : List Char → Option (List Char)
  | [] => none
  | d :: cs => if c = d then some cs else none

def date? (cs : List Char) : Option (Date × List Char) := do
  let (year, cs) ← digits? 4 cs
  let (month, cs) ← digits? 2 (← skip? '-' cs)
  let (day, cs) ← digits? 2 (← skip? '-' cs)
  let date : Date := { year, month, day }
  if date.isValid then some (date, cs) else none

def nanoseconds (digits : List Char) : Nat :=
  let kept := digits.take 9
  (Text.number? 10 kept).getD 0 * Nat.pow 10 (9 - kept.length)

def fraction? (cs : List Char) : Option (Nat × List Char) :=
  match cs with
  | '.' :: rest =>
    let digits := rest.takeWhile Char.isDigit
    if digits.isEmpty then none else some (nanoseconds digits, rest.drop digits.length)
  | _ => some (0, cs)

def time? (cs : List Char) : Option (TimeOfDay × List Char) := do
  let (hour, cs) ← digits? 2 cs
  let (minute, cs) ← digits? 2 (← skip? ':' cs)
  let (second, nanosecond, cs) ← match skip? ':' cs with
    | none => some (0, 0, cs)
    | some cs => do
      let (second, cs) ← digits? 2 cs
      let (nanosecond, cs) ← fraction? cs
      some (second, nanosecond, cs)
  let time : TimeOfDay := { hour, minute, second, nanosecond }
  if time.isValid then some (time, cs) else none

/-- An offset that takes up a whole text; the empty text is none. -/
def offset? : List Char → Option (Option TimeOffset)
  | [] => some none
  | ['Z'] | ['z'] => some (some .utc)
  | sign :: cs => do
    let (hour, cs) ← digits? 2 cs
    let (minute, cs) ← digits? 2 (← skip? ':' cs)
    if (sign == '+' || sign == '-') && hour ≤ 23 && minute ≤ 59 && cs.isEmpty then
      some (some (.shifted (sign == '-') hour minute))
    else none

def read? (cs : List Char) : Option DateTime :=
  match date? cs with
  | some (day, []) => some (.date day)
  | some (day, separator :: rest) => do
    let (hour, rest) ← time? rest
    let offset ← offset? rest
    if separator == 'T' || separator == 't' || separator == ' ' then some (.moment day hour offset)
    else none
  | none =>
    match time? cs with
    | some (hour, []) => some (.time hour)
    | _ => none

def padded (count n : Nat) : String :=
  let written := Nat.toDigits 10 n
  String.ofList (List.replicate (count - written.length) '0' ++ written)

def dateText (date : Date) : String :=
  padded 4 date.year ++ "-" ++ padded 2 date.month ++ "-" ++ padded 2 date.day

def fractionText (nanosecond : Nat) : String :=
  if nanosecond = 0 then ""
  else "." ++ String.ofList ((padded 9 nanosecond).toList.reverse.dropWhile (· == '0')).reverse

def timeText (time : TimeOfDay) : String :=
  padded 2 time.hour ++ ":" ++ padded 2 time.minute ++ ":" ++ padded 2 time.second ++
    fractionText time.nanosecond

def offsetText : TimeOffset → String
  | .utc => "Z"
  | .shifted west hour minute =>
    let sign := if west && (hour != 0 || minute != 0) then "-" else "+"
    sign ++ padded 2 hour ++ ":" ++ padded 2 minute

/-- The one spelling that all spellings of a date or time are brought to. -/
def text : DateTime → String
  | .date day => dateText day
  | .time hour => timeText hour
  | .moment day hour offset =>
    dateText day ++ "T" ++ timeText hour ++ (offset.map offsetText).getD ""

end DateTime

end PairedSource.Toml
