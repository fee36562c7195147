import BufferLedger.Json
import BufferLedger.Text.Digits

/-!
# JSON numbers

What a number literal denotes. The digits are gathered into a significand of at most sixty-four
bits: digits that no longer fit are dropped, before the point they still count as a place. A
literal with a point, an exponent or too many digits is the significand, rounded to binary64,
times or over a power of ten, rounded again; one that is too large denotes nothing.
-/

namespace BufferLedger

open Text

structure NumberLiteral where
  negative : Bool
  whole : List Char
  fraction : Option (List Char)
  exponent : Option Int

namespace NumberLiteral

structure Gathered where
  significand : Nat
  exponent : Int

def fits (significand : Nat) (c : Char) : Bool :=
  10 * significand + digitValue c ≤ word64Max

def gatherWhole (significand : Nat) : List Char → Gathered
  | [] => ⟨significand, 0⟩
  | c :: cs =>
    if fits significand c then gatherWhole (10 * significand + digitValue c) cs
    else ⟨significand, cs.length + 1⟩

def gatherFraction (g : Gathered) : List Char → Gathered
  | [] => g
  | c :: cs =>
    if fits g.significand c then
      gatherFraction ⟨10 * g.significand + digitValue c, g.exponent - 1⟩ cs
    else g

def powerOfTen (n : Nat) : Binary64 :=
  .ofNat (tenTo n)

/-- A finite number times a power of ten, rounded once for `10 ^ 308` and a second time for what
is left of a smaller power; nothing if the result is too large. -/
def scaleByTen (x : Binary64) (e : Int) : Option Binary64 :=
  if 308 < e then (if x.isZero then some x else none)
  else if 0 ≤ e then
    let y := x.mul (powerOfTen e.toNat)
    if y.isInfinite then none else some y
  else if -308 ≤ e then some (x.div (powerOfTen (-e).toNat))
  else if -616 ≤ e then some ((x.div (powerOfTen 308)).div (powerOfTen (-e - 308).toNat))
  else some (.finite false 0 Binary64.minExponent)

def toFloat? (l : NumberLiteral) : Option Binary64 :=
  let g := gatherFraction (gatherWhole 0 l.whole) (l.fraction.getD [])
  let magnitude := scaleByTen (.ofNat g.significand) (g.exponent + l.exponent.getD 0)
  magnitude.map fun x => if l.negative then x.neg else x

/-- The value of a literal. Zero with a minus sign is a float, as only floats have it. -/
def toJson (l : NumberLiteral) : Json :=
  let n := ofDigits l.whole
  let isWhole := l.fraction.isNone && l.exponent.isNone &&
    (if l.negative then 0 < n && n ≤ twoTo 63 else n ≤ word64Max)
  if isWhole then .whole (if l.negative then -(n : Int) else n)
  else match l.toFloat? with
    | some x => .float x
    | none => .illegible

end NumberLiteral

end BufferLedger
