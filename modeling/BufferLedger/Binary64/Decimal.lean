import BufferLedger.Binary64
import BufferLedger.Text.Digits

/-!
# Decimal literals

A decimal literal is digits with at most one point among, before or behind them, then
perhaps an exponent; the words for infinity and for not-a-number are literals too. A literal
denotes the binary64 number nearest to it.
-/

namespace BufferLedger

open Text

/-- The number `(-1) ^ negative * digits * 10 ^ exponent`. -/
structure Decimal where
  negative : Bool
  digits : Nat
  exponent : Int
  deriving DecidableEq

namespace Decimal

/-- The nearest binary64 number. A number of at least `10 ^ 400` or below `10 ^ -399` needs no
power of ten to be computed. -/
def toBinary64 (d : Decimal) : Binary64 :=
  if d.digits = 0 then .finite d.negative 0 Binary64.minExponent
  else if 400 ≤ d.exponent then .infinity d.negative
  else if d.exponent + d.digits.log2 + 1 < -399 then .finite d.negative 0 Binary64.minExponent
  else if 0 ≤ d.exponent then .ofQuotient d.negative (d.digits * tenTo d.exponent.toNat) 1
  else .ofQuotient d.negative d.digits (tenTo (-d.exponent).toNat)

def splitSign : List Char → Bool × List Char
  | '-' :: cs => (true, cs)
  | '+' :: cs => (false, cs)
  | cs => (false, cs)

def readExponent? (cs : List Char) : Option Int :=
  let (negative, run) := splitSign cs
  if !run.isEmpty && run.all isDigit then
    some (if negative then -(ofDigits run : Int) else (ofDigits run : Int))
  else none

def readUnsigned? (negative : Bool) (cs : List Char) : Option Decimal :=
  let whole := cs.takeWhile isDigit
  let rest := cs.dropWhile isDigit
  let (fraction, rest) : List Char × List Char := match rest with
    | '.' :: cs => (cs.takeWhile isDigit, cs.dropWhile isDigit)
    | rest => ([], rest)
  if whole.isEmpty && fraction.isEmpty then none
  else
    let number (e : Int) : Decimal :=
      ⟨negative, ofDigits (whole ++ fraction), e - fraction.length⟩
    match rest with
    | [] => some (number 0)
    | 'e' :: cs | 'E' :: cs => (readExponent? cs).map number
    | _ => none

end Decimal

namespace Binary64

def readLiteral? (cs : List Char) : Option Binary64 :=
  let (negative, rest) := Decimal.splitSign cs
  match Decimal.readUnsigned? negative rest with
  | some d => some d.toBinary64
  | none =>
    let word := rest.map Char.toLower
    if word = "inf".toList ∨ word = "infinity".toList then some (.infinity negative)
    else if word = "nan".toList then some .nan
    else none

end Binary64

end BufferLedger
