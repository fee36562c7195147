import BufferLedger.Text.Digits
import BufferLedger.Yaml.Source
import BufferLedger.Yaml.Token

/-!
# Names, tags and directives

An anchor and an alias have a name. A tag is written in full between angle brackets, or as a
handle and the rest; characters of it can be written by the numbers of their bytes. A directive
is about the version of the text or says what a handle stands for.
-/

namespace BufferLedger.Yaml

open Text

def isNameChar (c : Char) : Bool :=
  isDigit c || ('a' ≤ c && c ≤ 'z') || ('A' ≤ c && c ≤ 'Z') || c == '_' || c == '-'

def nameSpan (ps : List Place) : List Char × List Place :=
  ((ps.takeWhile fun p => isNameChar p.char).map (·.char), ps.dropWhile fun p => isNameChar p.char)

def reference? (ps : List Place) : Option (String × List Place) :=
  let (name, rest) := nameSpan ps
  let ended := match rest with
    | p :: _ => atGap rest || ['?', ':', ',', ']', '\x7d', '%', '@', '\x60'].contains p.char
    | [] => true
  if !name.isEmpty && ended then some (String.ofList name, rest) else none

/-! ## Tags -/

/-- The characters of a tag; brackets and commas only where nothing else can be meant. -/
def isTagChar (full : Bool) (c : Char) : Bool :=
  isNameChar c || ";/?:@&=+$.!~*'()".toList.contains c || (full && [',', '[', ']'].contains c)

def octet? : List Place → Option (Nat × List Place)
  | p :: q :: r :: ps => do
    if p.char == '%' then return (16 * (← hexValue? q.char) + (← hexValue? r.char), ps) else none
  | _ => none

def octetCount? (n : Nat) : Option Nat :=
  if n < 0x80 then some 1
  else if 0xC0 ≤ n && n < 0xE0 then some 2
  else if 0xE0 ≤ n && n < 0xF0 then some 3
  else if 0xF0 ≤ n && n < 0xF8 then some 4
  else none

def followers? : Nat → List Place → Option (Octets × List Place)
  | 0, ps => some ([], ps)
  | count + 1, ps => do
    let (n, ps) ← octet? ps
    if 0x80 ≤ n && n < 0xC0 then
      let (bytes, ps) ← followers? count ps
      return (UInt8.ofNat n :: bytes, ps)
    else none

def escapedChar? (ps : List Place) : Option (Octets × List Place) := do
  let (n, ps) ← octet? ps
  let (bytes, ps) ← followers? ((← octetCount? n) - 1) ps
  return (UInt8.ofNat n :: bytes, ps)

/-- The bytes of a tag. With a fuel of its length every text is read to the end. -/
def tagSpan? (full : Bool) : Nat → List Place → Option (Octets × List Place)
  | 0, ps => some ([], ps)
  | fuel + 1, ps =>
    match ps with
    | [] => some ([], [])
    | p :: rest =>
      if p.char == '%' then do
        let (bytes, rest) ← escapedChar? ps
        let (more, rest) ← tagSpan? full fuel rest
        return (bytes ++ more, rest)
      else if isTagChar full p.char then do
        let (more, rest) ← tagSpan? full fuel rest
        return (octets [p.char] ++ more, rest)
      else some ([], ps)

def tagBytes? (full : Bool) (ps : List Place) : Option (Octets × List Place) := do
  let (bytes, rest) ← tagSpan? full ps.length ps
  return (bytes.takeWhile (· != 0), rest)

def tagBytesOf? (full : Bool) (ps : List Place) : Option (Octets × List Place) := do
  let (bytes, rest) ← tagSpan? full ps.length ps
  if bytes.isEmpty then none else return (bytes.takeWhile (· != 0), rest)

def atChar (c : Char) : List Place → Bool
  | p :: _ => p.char == c
  | [] => false

def tag? (flow : Bool) (ps : List Place) : Option (Token × List Place) := do
  let (t, rest) ←
    if atChar '<' ps then do
      let (bytes, rest) ← tagBytesOf? true (ps.drop 1)
      if atChar '>' rest then some (Token.tag none bytes, rest.drop 1) else none
    else
      let (name, rest) := nameSpan ps
      if atChar '!' rest then do
        let (bytes, rest) ← tagBytesOf? false (rest.drop 1)
        some (Token.tag (some ("!" ++ String.ofList name ++ "!")) bytes, rest)
      else do
        let (bytes, rest) ← tagBytes? false rest
        let bytes := octets name ++ bytes
        some (if bytes.isEmpty then Token.tag none (octets ['!']) else Token.tag (some "!") bytes,
          rest)
  if atGap rest || (flow && atChar ',' rest) then return (t, rest) else none

/-! ## Directives -/

def skipGaps (ps : List Place) : List Place :=
  ps.dropWhile (·.isGap)

def maxVersionDigits : Nat := 9

def versionPart? (ps : List Place) : Option (Nat × List Place) :=
  let run := ps.takeWhile fun p => isDigit p.char
  if run.isEmpty || maxVersionDigits < run.length then none
  else some (ofDigits (run.map (·.char)), ps.dropWhile fun p => isDigit p.char)

def versionDirective? (ps : List Place) : Option (Token × List Place) := do
  let (major, ps) ← versionPart? (skipGaps ps)
  if !atChar '.' ps then none
  let (minor, ps) ← versionPart? (ps.drop 1)
  return (.version (major == 1 && (minor == 1 || minor == 2)), ps)

def handleDirective? (ps : List Place) : Option (Token × List Place) := do
  let ps := skipGaps ps
  if !atChar '!' ps then none
  let (name, ps) := nameSpan (ps.drop 1)
  let (handle, ps) ←
    if atChar '!' ps then some ("!" ++ String.ofList name ++ "!", ps.drop 1)
    else if name.isEmpty then some ("!", ps)
    else none
  let rest := skipGaps ps
  if rest.length = ps.length then none
  let (start, rest) ← tagBytesOf? true rest
  if atGap rest then return (.handle handle start, rest) else none

def afterDirective? (ps : List Place) : Option (List Place) :=
  let rest := skipGaps ps
  let rest := if atChar '#' rest then rest.dropWhile fun p => !p.isBreak else rest
  match rest with
  | [] => some []
  | p :: rest => if p.isBreak then some rest else none

def directive? (ps : List Place) : Option (Token × List Place) := do
  let (name, ps) := nameSpan ps
  let (t, rest) ← match String.ofList name with
    | "YAML" => if atGap ps then versionDirective? ps else none
    | "TAG" => if atGap ps then handleDirective? ps else none
    | _ => none
  return (t, ← afterDirective? rest)

end BufferLedger.Yaml
