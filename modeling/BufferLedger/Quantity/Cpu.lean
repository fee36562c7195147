import BufferLedger.Binary64.Shortest
import BufferLedger.Text.Blank

/-!
# CPU quantities

An amount of CPU is a whole number of thousandths of a core, of at most thirty-two bits. It is
written as thousandths with an `m` behind them, or as cores, perhaps with a fraction. Cores go
through binary64: the nearest number, times one thousand, to the nearest whole number.
-/

namespace BufferLedger.Quantity

open Text

inductive CpuRefusal
  | quantity (text : String)
  | amount (cores : Binary64)
  deriving DecidableEq

def CpuRefusal.message : CpuRefusal → String
  | .quantity text => "invalid CPU quantity '" ++ text ++ "'"
  | .amount cores => "invalid CPU amount " ++ cores.text

def milliOfCores? (cores : Binary64) : Option Nat :=
  match (cores.mul (.ofNat 1000)).round? with
  | some n => if 0 ≤ n ∧ n ≤ word32Max then some n.toNat else none
  | none => none

def readMilli? (cs : List Char) : Option Nat :=
  match dropSuffix? ['m'] cs with
  | some milli => readUpTo? word32Max milli
  | none => (Binary64.readLiteral? cs).bind milliOfCores?

def milliCpu? (text : String) : Option Nat :=
  readMilli? (trim text.toList)

end BufferLedger.Quantity
