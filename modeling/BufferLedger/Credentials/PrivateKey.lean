import BufferLedger.Credentials.Der

/-!
# Private keys

The kinds of private keys with which one can identify oneself: RSA keys, alone or in an envelope
that names the kind, keys on two elliptic curves, alone or in the envelope, and Ed25519 keys in
the envelope.
-/

namespace BufferLedger.Credentials

open Der

/-! ## The envelope -/

structure Envelope where
  version : Nat
  key : Octets
  publicKey : Option Octets

namespace Envelope

def ofBytes? (kind bytes : Octets) : Option Envelope := do
  let bytes ← only? .sequence bytes
  let (version, bytes) ← natural? bytes
  let (found, bytes) ← take? .sequence bytes
  if found ≠ kind then none
  let (key, bytes) ← take? .octetString bytes
  let bytes ← skipOptional? (.numbered 0 true) bytes
  match version with
  | 0 => if bytes.isEmpty then return ⟨0, key, none⟩ else none
  | 1 => do
    let bits ←
      if isAt (.numbered 1 true) bytes then only? .bitString (← only? (.numbered 1 true) bytes)
      else only? (.numbered 1 false) bytes
    return ⟨1, key, some (← wholeBits? bits)⟩
  | _ => none

def key? (kind bytes : Octets) : Option Octets := do
  let e ← ofBytes? kind bytes
  if e.version = 0 then return e.key else none

end Envelope

/-! ## RSA -/

structure RsaKey where
  modulus : Nat
  publicExponent : Nat
  privateExponent : Nat
  prime₁ : Nat
  prime₂ : Nat
  exponent₁ : Nat
  exponent₂ : Nat
  coefficient : Nat

namespace RsaKey

def kind : Octets :=
  [0x06, 0x09, 0x2A, 0x86, 0x48, 0x86, 0xF7, 0x0D, 0x01, 0x01, 0x01, 0x05, 0x00]

def naturals? : Nat → Octets → Option (List Nat)
  | 0, bytes => if bytes.isEmpty then some [] else none
  | count + 1, bytes => do
    let (n, bytes) ← natural? bytes
    return n :: (← naturals? count bytes)

def ofBytes? (bytes : Octets) : Option RsaKey := do
  match ← naturals? 9 (← only? .sequence bytes) with
  | [0, n, e, d, p, q, dp, dq, c] => return ⟨n, e, d, p, q, dp, dq, c⟩
  | _ => none

def bits (n : Nat) : Nat := if n = 0 then 0 else n.log2 + 1

def isSound (k : RsaKey) : Bool :=
  let size := bits k.modulus
  let isOdd (n : Nat) : Bool := n % 2 == 1
  2048 ≤ size && size ≤ 4096 && size % 512 == 0 &&
    65537 ≤ k.publicExponent && bits k.publicExponent ≤ 33 && isOdd k.publicExponent &&
    2 * bits k.prime₁ == size && 2 * bits k.prime₂ == size &&
    isOdd k.prime₁ && isOdd k.prime₂ && k.prime₁ * k.prime₂ == k.modulus &&
    twoTo (size / 2) < k.privateExponent && k.privateExponent < k.modulus &&
    isOdd k.privateExponent &&
    k.exponent₁ < k.prime₁ && isOdd k.exponent₁ &&
    k.exponent₂ < k.prime₂ && isOdd k.exponent₂ &&
    k.coefficient < k.prime₁ && k.prime₂ * k.coefficient % k.prime₁ == 1

def accepts (bytes : Octets) : Bool :=
  let found := ofBytes? bytes <|> (Envelope.key? kind bytes).bind ofBytes?
  found.any isSound

end RsaKey

/-! ## Elliptic curves -/

structure Curve where
  name : Octets
  size : Nat
  order : Nat

namespace Curve

def p256 : Curve where
  name := [0x06, 0x08, 0x2A, 0x86, 0x48, 0xCE, 0x3D, 0x03, 0x01, 0x07]
  size := 32
  order := 0xFFFFFFFF00000000FFFFFFFFFFFFFFFFBCE6FAADA7179E84F3B9CAC2FC632551

def p384 : Curve where
  name := [0x06, 0x05, 0x2B, 0x81, 0x04, 0x00, 0x22]
  size := 48
  order := twoTo 384 - 0x389CB27E0BC8D220A7E5F24DB74F58851313E695333AD68D

def kind (c : Curve) : Octets :=
  [0x06, 0x07, 0x2A, 0x86, 0x48, 0xCE, 0x3D, 0x02, 0x01] ++ c.name

/-- The number of a key on the curve. It is below the order, and a point has to be with it. -/
def secret? (c : Curve) (bytes : Octets) : Option Nat := do
  let bytes ← only? .sequence bytes
  let (version, bytes) ← natural? bytes
  if version ≠ 1 then none
  let (secret, bytes) ← take? .octetString bytes
  let bytes ←
    if isAt (.numbered 0 true) bytes then do
      let (name, bytes) ← take? (.numbered 0 true) bytes
      if name = c.name then some bytes else none
    else some bytes
  let point ← wholeBits? (← only? .bitString (← only? (.numbered 1 true) bytes))
  let n := Octets.toNat secret
  if secret.length = c.size ∧ 0 < n ∧ n < c.order ∧
      point.length = 2 * c.size + 1 ∧ point.head? = some 4 then return n
  else none

def accepts (c : Curve) (bytes : Octets) : Bool :=
  (((Envelope.key? c.kind bytes).bind c.secret?) <|> c.secret? bytes).isSome

end Curve

namespace Ed25519

def kind : Octets := [0x06, 0x03, 0x2B, 0x65, 0x70]

def size : Nat := 32

def accepts (bytes : Octets) : Bool :=
  let fits (key : Octets) : Bool := key.length == size
  let found : Option Bool := do
    let e ← Envelope.ofBytes? kind bytes
    return fits (← only? .octetString e.key) && e.publicKey.all fits
  found.getD false

end Ed25519

def isPrivateKey (bytes : Octets) : Bool :=
  RsaKey.accepts bytes || Curve.p256.accepts bytes || Curve.p384.accepts bytes ||
    Ed25519.accepts bytes

end BufferLedger.Credentials
