import BufferLedger.Text.Digits
import BufferLedger.Text.Octets

/-!
# Base64

Bytes written four characters to three bytes. The last group can be shorter, and where padding
is required it fills it up; the bits that it leaves over are zero.
-/

namespace BufferLedger.Text.Base64

def value? (c : Char) : Option Nat :=
  if 'A' ≤ c && c ≤ 'Z' then some (c.toNat - 'A'.toNat)
  else if 'a' ≤ c && c ≤ 'z' then some (c.toNat - 'a'.toNat + 26)
  else if isDigit c then some (digitValue c + 52)
  else if c == '+' then some 62
  else if c == '/' then some 63
  else none

def bytes? : List Nat → Option Octets
  | [a, b] => if b % 16 = 0 then some [UInt8.ofNat (4 * a + b / 16)] else none
  | [a, b, c] =>
    if c % 4 = 0 then
      some [UInt8.ofNat (4 * a + b / 16), UInt8.ofNat (b % 16 * 16 + c / 4)]
    else none
  | [a, b, c, d] =>
    some [UInt8.ofNat (4 * a + b / 16), UInt8.ofNat (b % 16 * 16 + c / 4),
      UInt8.ofNat (c % 4 * 64 + d)]
  | _ => none

def decodeLast? (padded : Bool) (group : List Char) : Option Octets := do
  let run := group.takeWhile (· ≠ '=')
  if (group.drop run.length).all (· == '=') && (!padded || group.length = 4) then
    bytes? (← run.mapM value?)
  else none

def decode? (padded : Bool) : List Char → Option Octets
  | [] => some []
  | a :: b :: c :: d :: e :: rest => do
    let bytes ← bytes? (← [a, b, c, d].mapM value?)
    return bytes ++ (← decode? padded (e :: rest))
  | group => decodeLast? padded group

end BufferLedger.Text.Base64
