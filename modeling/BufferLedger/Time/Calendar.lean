/-!
# The calendar

Dates of the Gregorian calendar, extended to all years, and their numbers. Years are counted
from March, so that the day that only some of them have is the last one; four hundred years are
the same number of days everywhere.
-/

namespace BufferLedger

structure Date where
  year : Int
  month : Nat
  day : Nat
  deriving DecidableEq

namespace Date

def isLeapYear (year : Int) : Bool :=
  year % 4 == 0 && (year % 100 != 0 || year % 400 == 0)

def monthLength (year : Int) (month : Nat) : Nat :=
  match month with
  | 2 => if isLeapYear year then 29 else 28
  | 4 | 6 | 9 | 11 => 30
  | _ => 31

def isValid (d : Date) : Bool :=
  1 ≤ d.month && d.month ≤ 12 && 1 ≤ d.day && d.day ≤ monthLength d.year d.month

def daysPerEra : Nat := 146097

/-- The days from the first of March of the year zero to the first of January 1970. -/
def epoch : Nat := 719468

def daysBefore (month : Nat) : Nat := (153 * month + 2) / 5

def number (d : Date) : Int :=
  let year := if d.month ≤ 2 then d.year - 1 else d.year
  let month := if d.month ≤ 2 then d.month + 9 else d.month - 3
  let inEra := (year % 400).toNat
  let days := 365 * inEra + inEra / 4 - inEra / 100 + daysBefore month + (d.day - 1)
  year / 400 * daysPerEra + days - epoch

def ofNumber (n : Int) : Date :=
  let n := n + epoch
  let days := (n % daysPerEra).toNat
  let inEra := (days - days / 1460 + days / 36524 - days / 146096) / 365
  let inYear := days - (365 * inEra + inEra / 4 - inEra / 100)
  let month := (5 * inYear + 2) / 153
  let year := n / daysPerEra * 400 + inEra
  { year := if month < 10 then year else year + 1
    month := if month < 10 then month + 3 else month - 9
    day := inYear - daysBefore month + 1 }

end Date

end BufferLedger
