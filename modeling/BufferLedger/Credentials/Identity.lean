import BufferLedger.Credentials.PrivateKey
import BufferLedger.Text.Base64

/-!
# Identities

A private key and the certificates that go with it, in one text of labelled sections. The text is
read line by line: a line begins a section, ends it, or belongs to it.
-/

namespace BufferLedger.Credentials

open Text

inductive Item
  | certificate
  | rsaKey
  | envelopedKey
  | curveKey
  | revocations
  deriving DecidableEq

namespace Item

def label : Item → String
  | .certificate => "CERTIFICATE"
  | .rsaKey => "RSA PRIVATE KEY"
  | .envelopedKey => "PRIVATE KEY"
  | .curveKey => "EC PRIVATE KEY"
  | .revocations => "X509 CRL"

def ofLabel? (label : Octets) : Option Item :=
  [certificate, .rsaKey, .envelopedKey, .curveKey, .revocations].find? fun i =>
    Octets.ofText i.label == label

end Item

namespace Identity

def isBreak (b : UInt8) : Bool :=
  b == 0x0A || b == 0x0D

def lines : Octets → List Octets
  | [] => []
  | b :: rest =>
    if isBreak b then [] :: lines rest
    else match lines rest with
      | [] => [[b]]
      | l :: ls => (b :: l) :: ls

def dash : UInt8 := 0x2D

def trimEnd (line : Octets) : Octets :=
  (line.reverse.dropWhile (· == 0x20)).reverse

def beginMark : Octets := Octets.ofText "-----BEGIN "

/-- The dashes at the end of a line, among which there may be blanks, and where they begin. -/
def trailer (line : Octets) : Nat × Nat :=
  let tail := line.reverse.takeWhile fun b => b == dash || b == 0x20
  let tail := (tail.reverse.dropWhile (· ≠ dash))
  (tail.count dash, line.length - tail.length)

def label? (line : Octets) : Option Octets :=
  let (dashes, start) := trailer line
  if dashes = 5 then some ((line.take start).drop beginMark.length) else none

def endMark (label : Octets) : Octets :=
  Octets.ofText "-----END " ++ label ++ Octets.ofText "-----"

structure Reading where
  label : Option Octets
  gathered : Octets

def decode? (bytes : Octets) : Option Octets :=
  Base64.decode? false (bytes.map fun b => Char.ofNat b.toNat)

def itemsFrom? : Reading → List Octets → Option (List (Item × Octets))
  | r, [] => if r.label.isSome then none else some []
  | r, line :: rest =>
    if beginMark.isPrefixOf line then do
      itemsFrom? { r with label := some (← label? line) } rest
    else match r.label with
      | none => itemsFrom? r rest
      | some label =>
        if (endMark label).isPrefixOf line then do
          let bytes ← decode? r.gathered
          let items ← itemsFrom? ⟨none, []⟩ rest
          return ((Item.ofLabel? label).map (·, bytes)).toList ++ items
        else itemsFrom? { r with gathered := r.gathered ++ trimEnd line } rest

def items? (bytes : Octets) : Option (List (Item × Octets)) :=
  itemsFrom? ⟨none, []⟩ (lines bytes)

def last? (item : Item) (items : List (Item × Octets)) : Option Octets :=
  (items.reverse.find? (·.1 = item)).map (·.2)

/-- Whether a text is an identity: it has certificates, which are not looked at, and a key that
can be used. -/
def accepts (bytes : Octets) : Bool :=
  match items? bytes with
  | none => false
  | some items =>
    let key := last? .envelopedKey items <|> last? .curveKey items <|> last? .rsaKey items
    items.all (·.1 ≠ .revocations) && items.any (·.1 = .certificate) && key.any isPrivateKey

end Identity

end BufferLedger.Credentials
