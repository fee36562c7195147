import BufferLedger.Power

/-!
# Decimal digits

Natural numbers as runs of decimal digits, most significant first.
-/

namespace BufferLedger.Text

def isDigit (c : Char) : Bool :=
  '0' ≤ c && c ≤ '9'

def digitValue (c : Char) : Nat :=
  c.toNat - '0'.toNat

def hexValue? (c : Char) : Option Nat :=
  if isDigit c then some (digitValue c)
  else if 'a' ≤ c && c ≤ 'f' then some (c.toNat - 'a'.toNat + 10)
  else if 'A' ≤ c && c ≤ 'F' then some (c.toNat - 'A'.toNat + 10)
  else none

def ofDigits (cs : List Char) : Nat :=
  cs.foldl (fun n c => 10 * n + digitValue c) 0

def readInBase? (base : Nat) (cs : List Char) : Option Nat :=
  if cs.isEmpty then none
  else cs.foldl (fun n c => do
    let d ← hexValue? c
    if d < base then return base * (← n) + d else none) (some 0)

/-- A natural number as it is written by people: digits, at least one, and at most a plus sign
before them. -/
def readNatural? : List Char → Option Nat
  | '+' :: cs => if !cs.isEmpty && cs.all isDigit then some (ofDigits cs) else none
  | cs => if !cs.isEmpty && cs.all isDigit then some (ofDigits cs) else none

def readUpTo? (limit : Nat) (cs : List Char) : Option Nat :=
  (readNatural? cs).filter (· ≤ limit)

def word32Max : Nat := twoTo 32 - 1

def word64Max : Nat := twoTo 64 - 1

def digits (n : Nat) : List Char :=
  Nat.toDigits 10 n

end BufferLedger.Text
