/-!
# The text of a YAML stream

The characters of a text with their places. An end of line is written in several ways and read
as one character; two separators of Unicode end a line too and stay what they are. What goes
into a scalar depends on the column at which its lines begin, so every character carries it.
-/

namespace BufferLedger.Yaml

structure Place where
  char : Char
  line : Nat
  column : Nat
  index : Nat

def isBreak (c : Char) : Bool :=
  c == '\n' || c.toNat == 0x2028 || c.toNat == 0x2029

def isGap (c : Char) : Bool :=
  c == ' ' || c == '\t'

namespace Place

abbrev isBreak (p : Place) : Bool := Yaml.isBreak p.char

abbrev isGap (p : Place) : Bool := Yaml.isGap p.char

end Place

def isAllowed (c : Char) : Bool :=
  let n := c.toNat
  c == '\t' || c == '\n' || c == '\r' || (0x20 ≤ n && n ≤ 0x7E) || n == 0x85 ||
    (0xA0 ≤ n && n ≤ 0xFFFD && n != 0xFEFF) || 0x10000 ≤ n

def dropMark : List Char → List Char
  | c :: cs => if c.toNat == 0xFEFF then cs else c :: cs
  | [] => []

def placesFrom (line column index : Nat) : List Char → List Place
  | [] => []
  | '\r' :: '\n' :: cs => ⟨'\n', line, column, index⟩ :: placesFrom (line + 1) 0 (index + 2) cs
  | c :: cs =>
    let c := if c == '\r' || c.toNat == 0x85 then '\n' else c
    if isBreak c then ⟨c, line, column, index⟩ :: placesFrom (line + 1) 0 (index + 1) cs
    else ⟨c, line, column, index⟩ :: placesFrom line (column + 1) (index + 1) cs

def places? (cs : List Char) : Option (List Place) :=
  if cs.all isAllowed then some (placesFrom 0 0 0 cs) else none

def atGap : List Place → Bool
  | [] => true
  | p :: _ => p.isGap || p.isBreak

def atMarker : List Place → Bool
  | p :: q :: r :: rest =>
    p.column == 0 && (p.char == '-' || p.char == '.') && q.char == p.char && r.char == p.char &&
      atGap rest
  | _ => false

end BufferLedger.Yaml
