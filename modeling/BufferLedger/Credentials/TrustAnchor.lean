import BufferLedger.Credentials.Der

/-!
# Trust anchors

What makes bytes a certificate that can be trusted: a certificate of the third version whose
extensions are understood, or one of the first version, which has none. Signatures are not
looked at, as nothing vouches for an anchor.
-/

namespace BufferLedger.Credentials.TrustAnchor

open Der

/-- The extensions that are understood, by the last byte of their names: key usage, alternative
names, constraints, constraints on names, places of revocation lists and extended usage. -/
def understood : List UInt8 := [15, 17, 19, 30, 31, 37]

def keyUsage : UInt8 := 15

def standardNumber? : Octets → Option UInt8
  | [0x55, 0x1D, n] => some n
  | _ => none

def flag? (bytes : Octets) : Option (Bool × Octets) :=
  if isAt .boolean bytes then do
    let (content, rest) ← take? .boolean bytes
    match content with
    | [0xFF] => return (true, rest)
    | [0x00] => return (false, rest)
    | _ => none
  else some (false, bytes)

def extension? (seen : List UInt8) (bytes : Octets) : Option (List UInt8) := do
  let (name, bytes) ← take? .objectName bytes
  let (critical, bytes) ← flag? bytes
  let content ← only? .octetString bytes
  match (standardNumber? name).filter understood.contains with
  | none => if critical then none else return seen
  | some n =>
    if seen.contains n then none
    if n ≠ keyUsage then
      let _ ← only? .sequence content
    return n :: seen

def extensions? : Nat → List UInt8 → Octets → Option Unit
  | 0, _, _ => none
  | fuel + 1, seen, bytes => do
    let (content, rest) ← take? .sequence bytes
    let seen ← extension? seen content
    if rest.isEmpty then return () else extensions? fuel seen rest

def skipSequences? : Nat → Octets → Option Octets
  | 0, bytes => some bytes
  | count + 1, bytes => do
    let (_, rest) ← take? .sequence bytes
    skipSequences? count rest

structure Signed where
  content : Octets
  kind : Octets

def signed? (bytes : Octets) : Option Signed := do
  let (content, bytes) ← take? .sequence (← only? .sequence bytes)
  let (kind, bytes) ← take? .sequence bytes
  let _ ← wholeBits? (← only? .bitString bytes)
  return ⟨content, kind⟩

def lastVersion : Nat := 2

/-- The form of the third version: the kind of the signature is repeated, and extensions may
follow. -/
def current? (s : Signed) : Option Unit := do
  let (version, bytes) ← take? (.numbered 0 true) s.content
  let (n, rest) ← natural? version
  if n ≠ lastVersion || !rest.isEmpty then none
  let (_, bytes) ← take? .integer bytes
  let (kind, bytes) ← take? .sequence bytes
  if kind ≠ s.kind then none
  let bytes ← skipSequences? 4 bytes
  if bytes.isEmpty then return ()
  else
    let content ← only? .sequence (← only? (.numbered 3 true) bytes)
    extensions? (content.length + 1) [] content

def first? (s : Signed) : Option Unit := do
  let (_, bytes) ← take? .integer s.content
  let bytes ← skipSequences? 5 bytes
  if bytes.isEmpty then return () else none

def accepts (bytes : Octets) : Bool :=
  (signed? bytes).any fun s => (current? s <|> first? s).isSome

end BufferLedger.Credentials.TrustAnchor
