import BufferLedger.Text.Base64
import BufferLedger.Text.Blank

/-!
# Bundles of certificates

Labelled blocks of bytes in a text: a mark that begins the block, perhaps headers, base64, and a
mark that ends it. Text between blocks counts for nothing. A mark is looked for without going
back: where it breaks off, the search goes on behind the character that did not fit.
-/

namespace BufferLedger.Credentials

open Text

structure Block where
  label : String
  bytes : Octets

namespace Block

/-- What stands before a mark, and what follows it. The bytes that have been read are given last
first, then the part of the mark that is still to come. -/
def searchFrom (mark : Octets) : Octets → Octets → Octets → Option (Octets × Octets)
  | passed, [], rest => some ((passed.drop mark.length).reverse, rest)
  | _, _ :: _, [] => none
  | passed, m :: missing, b :: rest =>
    searchFrom mark (b :: passed) (if b = m then missing else mark) rest

def search (mark : String) (bytes : Octets) : Option (Octets × Octets) :=
  searchFrom (Octets.ofText mark) [] (Octets.ofText mark) bytes

def isSpace (b : UInt8) : Bool :=
  b == 0x20 || b == 0x09 || b == 0x0A || b == 0x0D

def splitBody (body : Octets) : Octets × Octets :=
  ((search "\n\n" body) <|> (search "\r\n\r\n" body)).getD ([], body)

def trimReturn (line : String) : String :=
  match line.toList.reverse with
  | '\r' :: rest => String.ofList rest.reverse
  | _ => line

def lines (text : String) : List String :=
  let parts := text.splitOn "\n"
  let parts := if parts.getLast? == some "" then parts.dropLast else parts
  parts.map trimReturn

def areHeaders (headers : Octets) : Bool :=
  match headers.text? with
  | some text => (lines text).all (·.toList.contains ':')
  | none => false

structure Parts where
  first : Octets
  body : Octets
  last : Octets
  rest : Octets

def parts? (bytes : Octets) : Option Parts := do
  let (_, bytes) ← search "-----BEGIN " bytes
  let (first, bytes) ← search "-----" bytes
  let (body, bytes) ← search "-----END " (bytes.dropWhile isSpace)
  let (last, bytes) ← search "-----" bytes
  return ⟨first, body, last, bytes.dropWhile isSpace⟩

def ofParts? (p : Parts) : Option Block := do
  let label ← p.first.text?
  let (headers, data) := splitBody p.body
  let bytes ← Base64.decode? true ((← data.text?).toList.filter fun c => !isBlank c)
  if !p.first.isEmpty && p.first == p.last && areHeaders headers then return ⟨label, bytes⟩
  else none

def blocksFrom? : Nat → Octets → Option (List Block)
  | 0, _ => none
  | fuel + 1, bytes =>
    match parts? bytes with
    | none => some []
    | some p => do return (← ofParts? p) :: (← blocksFrom? fuel p.rest)

def blocks? (bytes : Octets) : Option (List Block) :=
  blocksFrom? (bytes.length + 1) bytes

end Block

def certificates? (bytes : Octets) : Option (List Octets) := do
  return ((← Block.blocks? bytes).filter (·.label = "CERTIFICATE")).map (·.bytes)

end BufferLedger.Credentials
