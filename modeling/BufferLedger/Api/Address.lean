import BufferLedger.Text.Digits

/-!
# Addresses of servers

The form of an address: an authority alone, a path alone, or a scheme, an authority and perhaps a
path and a query.
-/

namespace BufferLedger.Api.Address

open Text

def isLetter (c : Char) : Bool :=
  ('a' ≤ c && c ≤ 'z') || ('A' ≤ c && c ≤ 'Z')

def isAuthorityChar (c : Char) : Bool :=
  isLetter c || isDigit c || "!$&'()*+,-.:;=@[]_~".toList.contains c

def isPathChar (c : Char) : Bool :=
  let n := c.toNat
  n == 0x21 || (0x24 ≤ n && n ≤ 0x3B) || n == 0x3D || (0x40 ≤ n && n ≤ 0x5F) ||
    (0x61 ≤ n && n ≤ 0x7E) || c == '"'

def isQueryChar (c : Char) : Bool :=
  let n := c.toNat
  n == 0x21 || (0x24 ≤ n && n ≤ 0x3B) || n == 0x3D || (0x3F ≤ n && n ≤ 0x7E)

structure Seen where
  colons : Nat
  opened : Bool
  closed : Bool
  percent : Bool
  afterAt : Bool

namespace Seen

def nothing : Seen := ⟨0, false, false, false, false⟩

def maxColons : Nat := 8

def add? (c : Char) (s : Seen) : Option Seen :=
  let s := { s with afterAt := false }
  match c with
  | '%' => some { s with percent := true }
  | ':' => if s.colons < maxColons then some { s with colons := s.colons + 1 } else none
  | '[' => if s.percent || s.opened then none else some { s with opened := true }
  | ']' =>
    if !s.opened || s.closed then none
    else some { s with closed := true, colons := 0, percent := false }
  | '@' => some { s with colons := 0, percent := false, afterAt := true }
  | c => if isAuthorityChar c then some s else none

def complete (s : Seen) : Bool :=
  s.opened == s.closed && s.colons ≤ 1 && !s.afterAt && !s.percent

end Seen

def validAuthority (cs : List Char) : Bool :=
  match cs.foldlM (fun s c => Seen.add? c s) Seen.nothing with
  | some s => s.complete
  | none => false

def withoutFragment (cs : List Char) : List Char :=
  cs.takeWhile (· ≠ '#')

def pathOf (cs : List Char) : List Char :=
  (withoutFragment cs).takeWhile (· ≠ '?')

def queryOf (cs : List Char) : List Char :=
  ((withoutFragment cs).dropWhile (· ≠ '?')).drop 1

def validPath (cs : List Char) : Bool :=
  (pathOf cs).all isPathChar && (queryOf cs).all isQueryChar

def isSchemeChar (c : Char) : Bool :=
  isLetter c || isDigit c || "+-.~".toList.contains c

def maxScheme : Nat := 64

def maxLength : Nat := twoTo 16 - 2

def splitScheme? (cs : List Char) : Option (List Char × List Char) :=
  match cs.dropWhile isSchemeChar with
  | ':' :: '/' :: '/' :: rest => some (cs.takeWhile isSchemeChar, rest)
  | _ => none

def endsAuthority (c : Char) : Bool :=
  c == '/' || c == '?' || c == '#'

def valid (address : String) : Bool :=
  let cs := address.toList
  let authority (cs : List Char) := cs.takeWhile fun c => !endsAuthority c
  !cs.isEmpty && address.utf8ByteSize ≤ maxLength &&
    match cs with
    | '/' :: _ => validPath cs
    | ['*'] => true
    | cs =>
      match splitScheme? cs with
      | some (scheme, rest) =>
        scheme.length ≤ maxScheme && !(authority rest).isEmpty &&
          validAuthority (authority rest) && validPath (rest.dropWhile fun c => !endsAuthority c)
      | none => !cs.any endsAuthority && validAuthority cs

end BufferLedger.Api.Address
