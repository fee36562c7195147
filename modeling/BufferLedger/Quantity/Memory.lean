import BufferLedger.Binary64.Decimal
import BufferLedger.Text.Blank

/-!
# Memory quantities

An amount of memory is a whole number of bytes of at most sixty-four bits, written as a number
and perhaps a suffix for a power of 1024 or of 1000. A number written with digits alone is
exact; any other number, also one whose digits alone pass sixty-four bits, is rounded to
binary64 before and after it is multiplied.
-/

namespace BufferLedger.Quantity

open Text

/-- The suffixes and what they multiply by. The first that fits counts. -/
def byteSuffixes : List (String × Nat) :=
  [("Ki", twoTo 10), ("Mi", twoTo 20), ("Gi", twoTo 30), ("Ti", twoTo 40), ("Pi", twoTo 50),
   ("Ei", twoTo 60), ("k", tenTo 3), ("M", tenTo 6), ("G", tenTo 9), ("T", tenTo 12),
   ("P", tenTo 15), ("E", tenTo 18)]

def splitSuffix (cs : List Char) : List Char × Nat :=
  let fits := byteSuffixes.findSome? fun (suffix, multiplier) =>
    (dropSuffix? suffix.toList cs).map fun number => (number, multiplier)
  fits.getD (cs, 1)

/-- A number of bytes from a whole multiple that may have been rounded up to `2 ^ 64`. -/
def capBytes? (n : Int) : Option Nat :=
  if 0 ≤ n ∧ n ≤ twoTo 64 then some (min n.toNat word64Max) else none

def readBytes? (number : List Char) (multiplier : Nat) : Option Nat :=
  match readUpTo? word64Max number with
  | some whole => if whole * multiplier ≤ word64Max then some (whole * multiplier) else none
  | none =>
    (Binary64.readLiteral? number).bind fun x =>
      ((x.mul (.ofNat multiplier)).round?).bind capBytes?

def bytes? (text : String) : Option Nat :=
  let (number, multiplier) := splitSuffix (trim text.toList)
  readBytes? number multiplier

end BufferLedger.Quantity
