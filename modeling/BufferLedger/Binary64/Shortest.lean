import BufferLedger.Binary64.Decimal

/-!
# The shortest text of a binary64 number

The fewest decimal digits that denote the number, and of those the ones nearest to it
(`Binary64.shortest`). Two formats are built on them: `Binary64.text`, which never has an
exponent, and `Binary64.literal`, which always shows that the number is a float.
-/

namespace BufferLedger

open Text

namespace Binary64

/-- The ends of the interval of numbers that round to `m * 2 ^ e`, in units of `2 ^ (e - 2)`.
Below a power of two the neighbour is only half as far. -/
def neighbourhood (m : Nat) (e : Int) : Nat × Nat :=
  if m = twoTo 52 ∧ minExponent < e then (4 * m - 1, 4 * m + 2) else (4 * m - 2, 4 * m + 2)

def leadingPower (num den : Nat) : Int :=
  if den ≤ num then (digits (num / den)).length - 1
  else -((digits ((den - 1) / num)).length : Int)

/-- Whether `c * 10 ^ p` denotes the number `m * 2 ^ e`: it is inside the neighbourhood, or on
its edge and the significand is even. -/
def denotes (m : Nat) (e : Int) (c : Nat) (p : Int) : Bool :=
  let (lo, hi) := neighbourhood m e
  -- The candidate in units of `2 ^ (e - 2)` is `num / den`.
  let (num, den) := scaled c 1 (e - 2)
  let (num, den) := if 0 ≤ p then (num * tenTo p.toNat, den) else (num, den * tenTo (-p).toNat)
  if m % 2 = 0 then decide (lo * den ≤ num ∧ num ≤ hi * den)
  else decide (lo * den < num ∧ num < hi * den)

/-- Of the two multiples of `10 ^ p` around `num / den`, the nearer one that denotes it; of two
that are equally near the larger. -/
def candidate? (m : Nat) (e : Int) (num den : Nat) (p : Int) : Option Nat :=
  let (n, d) := if 0 ≤ p then (num, den * tenTo p.toNat) else (num * tenTo (-p).toNat, den)
  let below := n / d
  let (first, second) := if 2 * (n % d) < d then (below, below + 1) else (below + 1, below)
  if denotes m e first p then some first
  else if denotes m e second p then some second
  else none

def searchDigits (m : Nat) (e : Int) (num den : Nat) (power : Int) :
    Nat → Nat → Nat × Int
  | 0, _ => (num / den, 0)
  | fuel + 1, count =>
    let p := power - count + 1
    match candidate? m e num den p with
    | some c => (c, p)
    | none => searchDigits m e num den power fuel (count + 1)

def dropZeros (fuel : Nat) (c : Nat) (p : Int) : Nat × Int :=
  match fuel with
  | 0 => (c, p)
  | fuel + 1 => if c ≠ 0 ∧ c % 10 = 0 then dropZeros fuel (c / 10) (p + 1) else (c, p)

/-- The shortest digits of a positive number `m * 2 ^ e` and their power of ten. Seventeen
digits are always enough. -/
def shortest (m : Nat) (e : Int) : Nat × Int :=
  let (num, den) := magnitude m e
  let (c, p) := searchDigits m e num den (leadingPower num den) 17 1
  dropZeros 17 c p

def zeros (n : Int) : String :=
  String.ofList (List.replicate n.toNat '0')

def withPoint (ds : List Char) (places : Int) : String :=
  let split := ds.length - places.toNat
  String.ofList (ds.take split) ++ "." ++ String.ofList (ds.drop split)

def positional (c : Nat) (p : Int) : String :=
  let ds := digits c
  if 0 ≤ p then String.ofList ds ++ zeros p
  else if -p < ds.length then withPoint ds (-p)
  else "0." ++ zeros (-p - ds.length) ++ String.ofList ds

def text : Binary64 → String
  | .nan => "NaN"
  | .infinity negative => if negative then "-inf" else "inf"
  | .finite negative m e =>
    let magnitude := if m = 0 then "0" else
      let (c, p) := shortest m e
      positional c p
    if negative then "-" ++ magnitude else magnitude

/-- Digits and a power of ten with a point or an exponent, so that no integer is written. The
exponent is used for sixteen and more digits before the point and from five zeros behind it. -/
def pointed (c : Nat) (p : Int) : String :=
  let ds := digits c
  let point : Int := ds.length + p
  if 0 ≤ p ∧ point ≤ 16 then positional c p ++ ".0"
  else if -5 < point ∧ point ≤ 16 then positional c p
  else
    let mantissa := if ds.length = 1 then String.ofList ds else withPoint ds (ds.length - 1)
    mantissa ++ "e" ++ toString (point - 1)

def literal : Binary64 → String
  | .finite negative m e =>
    let magnitude := if m = 0 then "0.0" else
      let (c, p) := shortest m e
      pointed c p
    if negative then "-" ++ magnitude else magnitude
  | _ => "null"

end Binary64

end BufferLedger
