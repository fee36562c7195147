import BufferLedger.Text.Digits
import BufferLedger.Yaml.Source

/-!
# Block scalars

A text of whole lines, told by their indentation. A literal text keeps its ends of lines; in a
folded one an end of line between two lines that begin with no white space becomes a blank. The
ends of lines at the end are stripped, kept, or clipped to one.
-/

namespace BufferLedger.Yaml

open Text

inductive Chomp
  | strip
  | clip
  | keep

structure BlockStyle where
  folded : Bool
  chomp : Chomp
  increment : Option Nat

structure Pending where
  first : Option Char
  more : List Char
  indented : Bool

namespace BlockStyle

def between (style : BlockStyle) (b : Pending) (indented : Bool) : List Char :=
  if style.folded && b.first == some '\n' && !b.indented && !indented then
    (if b.more.isEmpty then [' '] else b.more)
  else b.first.toList ++ b.more

def final (style : BlockStyle) (b : Pending) : List Char :=
  match style.chomp with
  | .strip => []
  | .clip => b.first.toList
  | .keep => b.first.toList ++ b.more

/-- Reads the lines that are indented by `width`. `inside` holds within a line, behind its
indentation. -/
def lines? (style : BlockStyle) (width : Nat) :
    Bool → Pending → List Place → Option (List Char × List Place)
  | _, b, [] => some (style.final b, [])
  | inside, b, p :: ps =>
    if p.isBreak then
      if inside then style.lines? width false { b with first := some p.char } ps
      else style.lines? width false { b with more := b.more ++ [p.char] } ps
    else if inside then do
      let (text, rest) ← style.lines? width true b ps
      return (p.char :: text, rest)
    else if p.column < width && p.char == ' ' then style.lines? width false b ps
    else if p.column < width && p.char == '\t' then none
    else if p.column == width then do
      let (text, rest) ← style.lines? width true ⟨none, [], p.isGap⟩ ps
      return (style.between b p.isGap ++ p.char :: text, rest)
    else some (style.final b, p :: ps)

def leading? (widest : Nat) : List Place → Option (List Char × Nat × List Place)
  | [] => some ([], widest, [])
  | p :: ps =>
    if p.isBreak then do
      let (breaks, widest, rest) ← leading? (max widest p.column) ps
      return (p.char :: breaks, widest, rest)
    else if p.char == ' ' then leading? widest ps
    else if p.char == '\t' then none
    else some ([], max widest p.column, p :: ps)

def afterHeader? (comment : Bool) : List Place → Option (List Place)
  | [] => some []
  | p :: ps =>
    if p.isBreak then some ps
    else if comment || p.isGap then afterHeader? comment ps
    else if p.char == '#' then afterHeader? true ps
    else none

def chomp? : List Place → Option (Chomp × List Place)
  | p :: ps =>
    if p.char == '+' then some (.keep, ps)
    else if p.char == '-' then some (.strip, ps)
    else none
  | [] => none

def increment? : List Place → Option (Nat × List Place)
  | p :: ps => if isDigit p.char then some (digitValue p.char, ps) else none
  | [] => none

def header? (folded : Bool) (ps : List Place) : Option (BlockStyle × List Place) := do
  let (style, ps) : BlockStyle × List Place := match chomp? ps with
    | some (chomp, ps) =>
      match increment? ps with
      | some (n, ps) => (⟨folded, chomp, some n⟩, ps)
      | none => (⟨folded, chomp, none⟩, ps)
    | none =>
      match increment? ps with
      | some (n, ps) =>
        match chomp? ps with
        | some (chomp, ps) => (⟨folded, chomp, some n⟩, ps)
        | none => (⟨folded, .clip, some n⟩, ps)
      | none => (⟨folded, .clip, none⟩, ps)
  if style.increment == some 0 then none
  return (style, ← afterHeader? false ps)

end BlockStyle

/-- Reads a block scalar from behind its indicator. `least` is one more than the indentation of
the surrounding block. -/
def blockScalar? (folded : Bool) (least : Nat) (ps : List Place) :
    Option (List Char × List Place) := do
  let (style, ps) ← BlockStyle.header? folded ps
  match style.increment with
  | some n => style.lines? (least - 1 + n) false ⟨none, [], false⟩ ps
  | none => do
    let (breaks, widest, rest) ← BlockStyle.leading? 0 ps
    style.lines? (max widest (max least 1)) false ⟨none, breaks, false⟩ rest

end BufferLedger.Yaml
