import BufferLedger.Power
import BufferLedger.Text.Octets

/-!
# Tagged bytes

The encoding of certificates and keys: a value is a tag, the length of its content, and the
content, which can be made of values again. A length is written in as few bytes as possible.
-/

namespace BufferLedger.Credentials.Der

inductive Tag
  | boolean
  | integer
  | bitString
  | octetString
  | objectName
  | sequence
  | numbered (number : UInt8) (composed : Bool)
  deriving DecidableEq

def Tag.byte : Tag → UInt8
  | .boolean => 0x01
  | .integer => 0x02
  | .bitString => 0x03
  | .octetString => 0x04
  | .objectName => 0x06
  | .sequence => 0x30
  | .numbered n composed => (if composed then 0xA0 else 0x80) + n

def maxLength : Nat := twoTo 16 - 1

def length? : Octets → Option (Nat × Octets)
  | [] => none
  | n :: rest =>
    if n < 0x80 then some (n.toNat, rest)
    else
      let count := n.toNat - 0x80
      let length := Octets.toNat (rest.take count)
      let least := if count = 1 then 0x80 else twoTo (8 * (count - 1))
      if 1 ≤ count ∧ count ≤ rest.length ∧ least ≤ length ∧ length < maxLength then
        some (length, rest.drop count)
      else none

def take? (tag : Tag) : Octets → Option (Octets × Octets)
  | [] => none
  | t :: rest => do
    let (length, rest) ← length? rest
    if t = tag.byte ∧ length ≤ rest.length then return (rest.take length, rest.drop length)
    else none

def only? (tag : Tag) (bytes : Octets) : Option Octets := do
  let (content, rest) ← take? tag bytes
  if rest.isEmpty then return content else none

def isAt (tag : Tag) (bytes : Octets) : Bool :=
  bytes.head? == some tag.byte

def skipOptional? (tag : Tag) (bytes : Octets) : Option Octets :=
  if isAt tag bytes then (take? tag bytes).map (·.2) else some bytes

def natural? (bytes : Octets) : Option (Nat × Octets) := do
  let (content, rest) ← take? .integer bytes
  match content with
  | [] => none
  | [b] => if b < 0x80 then return (b.toNat, rest) else none
  | a :: b :: _ =>
    if a < 0x80 ∧ (a ≠ 0 ∨ 0x80 ≤ b) then return (Octets.toNat content, rest) else none

def wholeBits? : Octets → Option Octets
  | 0 :: rest => some rest
  | _ => none

end BufferLedger.Credentials.Der
