import BufferLedger.Power

/-!
# Binary64 numbers

A finite binary64 number is a whole significand below `2 ^ 53` times a power of two not below
`2 ^ -1074`. Every operation here is the exact result followed by one rounding: to the nearest
number, a tie to the even significand, and past the largest finite number to infinity
(`Binary64.ofQuotient`).
-/

namespace BufferLedger

inductive Binary64
  | nan
  | infinity (negative : Bool)
  /-- The number `(-1) ^ negative * significand * 2 ^ exponent`. -/
  | finite (negative : Bool) (significand : Nat) (exponent : Int)
  deriving DecidableEq

namespace Binary64

def roundHalfEven (num den : Nat) : Nat :=
  let q := num / den
  let r := num % den
  if den < 2 * r ∨ (2 * r = den ∧ q % 2 = 1) then q + 1 else q

def roundHalfUp (num den : Nat) : Nat :=
  (2 * num + den) / (2 * den)

def scaled (num den : Nat) (exponent : Int) : Nat × Nat :=
  if 0 ≤ exponent then (num, den * twoTo exponent.toNat)
  else (num * twoTo (-exponent).toNat, den)

def minExponent : Int := -1074

def maxExponent : Int := 971

/-- The exponent at which the quotient has a significand of fifty-three bits, or the least
exponent if the quotient is too small for that. -/
def exponentOf (num den : Nat) : Int :=
  let e : Int := (num.log2 : Int) - (den.log2 : Int) - 52
  let (n, d) := scaled num den e
  max minExponent (if n < d * twoTo 52 then e - 1 else e)

def ofQuotient (negative : Bool) (num den : Nat) : Binary64 :=
  if num = 0 then .finite negative 0 minExponent
  else
    let e := exponentOf num den
    let (n, d) := scaled num den e
    let m := roundHalfEven n d
    let (m, e) := if m = twoTo 53 then (twoTo 52, e + 1) else (m, e)
    if maxExponent < e then .infinity negative else .finite negative m e

def ofNat (n : Nat) : Binary64 :=
  ofQuotient false n 1

def ofInt (n : Int) : Binary64 :=
  ofQuotient (n < 0) n.natAbs 1

def neg : Binary64 → Binary64
  | .nan => .nan
  | .infinity negative => .infinity !negative
  | .finite negative m e => .finite (!negative) m e

def isZero : Binary64 → Bool
  | .finite _ m _ => m = 0
  | _ => false

def isInfinite : Binary64 → Bool
  | .infinity _ => true
  | _ => false

def isFinite : Binary64 → Bool
  | .finite .. => true
  | _ => false

def magnitude (m : Nat) (e : Int) : Nat × Nat :=
  scaled m 1 (-e)

def mul : Binary64 → Binary64 → Binary64
  | .finite s m e, .finite s' m' e' =>
    let (n, d) := magnitude (m * m') (e + e')
    ofQuotient (s != s') n d
  | .infinity s, .infinity s' => .infinity (s != s')
  | .infinity s, .finite s' m _ => if m = 0 then .nan else .infinity (s != s')
  | .finite s m _, .infinity s' => if m = 0 then .nan else .infinity (s != s')
  | _, _ => .nan

def div : Binary64 → Binary64 → Binary64
  | .finite s m e, .finite s' m' e' =>
    if m' = 0 then (if m = 0 then .nan else .infinity (s != s'))
    else
      let (n, d) := magnitude m (e - e')
      ofQuotient (s != s') n (d * m')
  | .infinity s, .finite s' _ _ => .infinity (s != s')
  | .finite s _ _, .infinity s' => .finite (s != s') 0 minExponent
  | _, _ => .nan

def round? : Binary64 → Option Int
  | .finite negative m e =>
    let (n, d) := magnitude m e
    let q : Int := roundHalfUp n d
    some (if negative then -q else q)
  | _ => none

end Binary64

end BufferLedger
