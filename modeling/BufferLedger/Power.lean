/-!
# Powers

The powers in which sizes of words, places of digits and units of quantities are measured.
-/

namespace BufferLedger

def twoTo (n : Nat) : Nat := Nat.pow 2 n

def tenTo (n : Nat) : Nat := Nat.pow 10 n

end BufferLedger
