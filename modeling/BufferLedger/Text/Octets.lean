/-!
# Bytes

Runs of bytes, and the text that they are in UTF-8.
-/

namespace BufferLedger

abbrev Octets := List UInt8

namespace Octets

def ofText (s : String) : Octets :=
  s.toUTF8.toList

def text? (bytes : Octets) : Option String :=
  String.fromUTF8? ⟨bytes.toArray⟩

def toNat (bytes : Octets) : Nat :=
  bytes.foldl (fun n b => 256 * n + b.toNat) 0

end Octets

end BufferLedger
