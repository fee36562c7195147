import BufferLedger.Text.Blank
import BufferLedger.Text.Digits
import BufferLedger.Time.Calendar

/-!
# Moments

Points in time to the second, and their text: a date, a time of day and an offset. Reading is
generous about white space and the number of digits; what is written is the moment in universal
time. A minute can have a second more than sixty.
-/

namespace BufferLedger

open Text

structure Moment where
  seconds : Int
  /-- Whether it is the second inserted after this one. -/
  inserted : Bool
  deriving DecidableEq

namespace Moment

def secondsPerDay : Nat := 86400

/-! ## Reading -/

def part? (most : Nat) (cs : List Char) : Option (Nat × List Char) :=
  let cs := trimStart cs
  let run := (cs.takeWhile isDigit).take most
  if run.isEmpty then none else some (ofDigits run, cs.drop run.length)

def after? (sign : Char) (cs : List Char) : Option (List Char) :=
  match trimStart cs with
  | c :: rest => if c == sign then some rest else none
  | [] => none

def run? (cs : List Char) : Option (Nat × List Char) :=
  if (cs.takeWhile isDigit).isEmpty then none
  else some (ofDigits (cs.takeWhile isDigit), cs.dropWhile isDigit)

def year? (cs : List Char) : Option (Int × List Char) :=
  match trimStart cs with
  | '-' :: cs => (run? cs).map fun (n, rest) => (-(n : Int), rest)
  | '+' :: cs => (run? cs).map fun (n, rest) => ((n : Int), rest)
  | cs => (part? 4 cs).map fun (n, rest) => ((n : Int), rest)

def date? (cs : List Char) : Option (Date × List Char) := do
  let (year, cs) ← year? cs
  let (month, cs) ← part? 2 (← after? '-' cs)
  let (day, cs) ← part? 2 (← after? '-' cs)
  return (⟨year, month, day⟩, cs)

structure Clock where
  hour : Nat
  minute : Nat
  second : Nat

def Clock.isValid (c : Clock) : Bool :=
  c.hour < 24 && c.minute < 60 && c.second ≤ 60

def afterFraction? : List Char → Option (List Char)
  | '.' :: cs => (run? cs).map (·.2)
  | cs => some cs

def clock? (cs : List Char) : Option (Clock × List Char) := do
  let (hour, cs) ← part? 2 cs
  let (minute, cs) ← part? 2 (← after? ':' cs)
  let (second, cs) ← part? 2 (← after? ':' cs)
  return (⟨hour, minute, second⟩, ← afterFraction? cs)

def distance? : List Char → Option (Nat × List Char)
  | a :: b :: cs =>
    match cs.dropWhile fun c => c == ':' || isBlank c with
    | c :: d :: rest =>
      if [a, b, c, d].all isDigit && c < '6' then
        some (3600 * ofDigits [a, b] + 60 * ofDigits [c, d], rest)
      else none
    | _ => none
  | _ => none

def offset? : List Char → Option (Int × List Char)
  | a :: b :: c :: rest =>
    if [a, b, c].map Char.toLower == ['u', 't', 'c'] then some (0, rest)
    else if a == 'Z' || a == 'z' then some (0, b :: c :: rest)
    else if a == '+' then (distance? (b :: c :: rest)).map fun (n, rest) => ((n : Int), rest)
    else if a == '-' || a.toNat == 0x2212 then
      (distance? (b :: c :: rest)).map fun (n, rest) => (-(n : Int), rest)
    else none
  | c :: rest => if c == 'Z' || c == 'z' then some (0, rest) else none
  | [] => none

def minYear : Int := -262143

def maxYear : Int := 262142

def isYear (year : Int) : Bool :=
  minYear ≤ year && year ≤ maxYear

def date (m : Moment) : Date :=
  .ofNumber (m.seconds / secondsPerDay)

def of? (d : Date) (c : Clock) (offset : Int) : Option Moment :=
  if isYear d.year && d.isValid && c.isValid && offset.natAbs < secondsPerDay then
    let ofDay : Int := 3600 * c.hour + 60 * c.minute + min c.second 59
    let m : Moment := ⟨d.number * secondsPerDay + ofDay - offset, c.second == 60⟩
    if isYear m.date.year then some m else none
  else none

def ofText? (text : String) : Option Moment := do
  let (d, cs) ← date? text.toList
  match cs with
  | [] => none
  | c :: cs =>
    if !(c == 't' || c == 'T' || c == ' ') then none
    let (clock, cs) ← clock? cs
    let (offset, cs) ← offset? (trimStart cs)
    if (trimStart cs).isEmpty then of? d clock offset else none

/-! ## Writing -/

def padded (least n : Nat) : String :=
  let ds := digits n
  String.ofList (List.replicate (least - ds.length) '0' ++ ds)

def yearText (year : Int) : String :=
  if 0 ≤ year ∧ year ≤ 9999 then padded 4 year.natAbs
  else (if year < 0 then "-" else "+") ++ padded 4 year.natAbs

def text (m : Moment) : String :=
  let d := m.date
  let ofDay := (m.seconds % secondsPerDay).toNat
  let second := ofDay % 60 + (if m.inserted then 1 else 0)
  yearText d.year ++ "-" ++ padded 2 d.month ++ "-" ++ padded 2 d.day ++ "T" ++
    padded 2 (ofDay / 3600) ++ ":" ++ padded 2 (ofDay / 60 % 60) ++ ":" ++
    padded 2 second ++ "Z"

end Moment

end BufferLedger
