import BufferLedger.Text.Digits
import BufferLedger.Yaml.Fold

/-!
# Quoted scalars

Between single quotes only the quote itself is escaped, by another one. Between double quotes a
backslash escapes characters, by a letter or by their number, and ends of lines. In both the
white space at the end of a line is folded.
-/

namespace BufferLedger.Yaml

open Text

def singleQuoted? : Gap → List Place → Option (List Char × List Place)
  | _, [] => none
  | gap, p :: ps =>
    if p.isBreak then singleQuoted? (gap.addBreak p.char) ps
    else if p.isGap then singleQuoted? (gap.addBlank p.char) ps
    else if atMarker (p :: ps) then none
    else if p.char == '\'' then
      match ps with
      | q :: qs =>
        if q.char == '\'' then do
          let (text, rest) ← singleQuoted? .nothing qs
          return (gap.fold ++ '\'' :: text, rest)
        else some (gap.fold, ps)
      | [] => some (gap.fold, [])
    else do
      let (text, rest) ← singleQuoted? .nothing ps
      return (gap.fold ++ p.char :: text, rest)

def letterEscape? : Char → Option Char
  | '0' => some '\x00'
  | 'a' => some '\x07'
  | 'b' => some '\x08'
  | 't' => some '\t'
  | '\t' => some '\t'
  | 'n' => some '\n'
  | 'v' => some '\x0b'
  | 'f' => some '\x0c'
  | 'r' => some '\r'
  | 'e' => some '\x1b'
  | ' ' => some ' '
  | '"' => some '"'
  | '/' => some '/'
  | '\\' => some '\\'
  | 'N' => some (Char.ofNat 0x85)
  | '_' => some (Char.ofNat 0xA0)
  | 'L' => some (Char.ofNat 0x2028)
  | 'P' => some (Char.ofNat 0x2029)
  | _ => none

def codeLength? : Char → Option Nat
  | 'x' => some 2
  | 'u' => some 4
  | 'U' => some 8
  | _ => none

def ofCode? (n : Nat) : Option Char :=
  if n < 0xD800 || (0xE000 ≤ n && n < 0x110000) then some (Char.ofNat n) else none

inductive Spot
  | text (gap : Gap)
  | escape
  | code (missing value : Nat)

def doubleQuoted? : Spot → List Place → Option (List Char × List Place)
  | _, [] => none
  | .text gap, p :: ps =>
    if p.isBreak then doubleQuoted? (.text (gap.addBreak p.char)) ps
    else if p.isGap then doubleQuoted? (.text (gap.addBlank p.char)) ps
    else if atMarker (p :: ps) then none
    else if p.char == '"' then some (gap.fold, ps)
    else if p.char == '\\' then do
      let (text, rest) ← doubleQuoted? .escape ps
      return (gap.fold ++ text, rest)
    else do
      let (text, rest) ← doubleQuoted? (.text .nothing) ps
      return (gap.fold ++ p.char :: text, rest)
  | .escape, p :: ps =>
    if p.isBreak then doubleQuoted? (.text (.breaks none [])) ps
    else match codeLength? p.char with
      | some n => doubleQuoted? (.code n 0) ps
      | none => do
        let c ← letterEscape? p.char
        let (text, rest) ← doubleQuoted? (.text .nothing) ps
        return (c :: text, rest)
  | .code missing value, p :: ps => do
    let value := 16 * value + (← hexValue? p.char)
    if 1 < missing then doubleQuoted? (.code (missing - 1) value) ps
    else do
      let c ← ofCode? value
      let (text, rest) ← doubleQuoted? (.text .nothing) ps
      return (c :: text, rest)

end BufferLedger.Yaml
