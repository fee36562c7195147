import BufferLedger.Text.Digits

/-!
# Form encoding

Text as a value in the query of an address: letters, digits and four signs stand for themselves,
a plus sign for a blank, and every other byte is written by its number.
-/

namespace BufferLedger.Text.Form

def isKept (c : Char) : Bool :=
  isDigit c || ('a' ≤ c && c ≤ 'z') || ('A' ≤ c && c ≤ 'Z') || "*-._".toList.contains c

def byteText (b : UInt8) : List Char :=
  ['%', (Nat.digitChar (b.toNat / 16)).toUpper, (Nat.digitChar (b.toNat % 16)).toUpper]

def encodeChar (c : Char) : List Char :=
  if isKept c then [c]
  else if c == ' ' then ['+']
  else c.toString.toUTF8.toList.flatMap byteText

def encode (s : String) : String :=
  String.ofList (s.toList.flatMap encodeChar)

end BufferLedger.Text.Form
