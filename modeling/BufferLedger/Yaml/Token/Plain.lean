import BufferLedger.Yaml.Fold

/-!
# Plain scalars

A plain scalar goes on up to a colon that ends a key or a comment, and in a flow collection also
up to a bracket or a comma. In a block its further lines have to be indented.
-/

namespace BufferLedger.Yaml

def isFlowMark (c : Char) : Bool :=
  [',', '[', ']', '\x7b', '\x7d'].contains c

def isTight : List Place → Bool
  | p :: _ => isFlowMark p.char || p.char == '?'
  | [] => false

structure Plain where
  text : List Char
  broken : Bool
  rest : List Place

def endsPlain (flow : Bool) (least : Nat) (gap : Gap) (p : Place) (ps : List Place) : Bool :=
  (p.char == ':' && atGap ps) || (flow && isFlowMark p.char) ||
    (!gap.isNothing && (p.char == '#' || atMarker (p :: ps) || (!flow && p.column < least)))

/-- Reads on in a plain scalar after some white space. `least` is the least indentation of its
further lines. -/
def plain? (flow : Bool) (least : Nat) : Gap → List Place → Option Plain
  | gap, [] => some ⟨[], gap.isBroken, []⟩
  | gap, p :: ps =>
    if p.isBreak then plain? flow least (gap.addBreak p.char) ps
    else if p.isGap then
      if gap.isBroken && p.char == '\t' && p.column < least then none
      else plain? flow least (gap.addBlank p.char) ps
    else if flow && p.char == ':' && isTight ps then none
    else if endsPlain flow least gap p ps then some ⟨[], gap.isBroken, p :: ps⟩
    else do
      let more ← plain? flow least .nothing ps
      return { more with text := gap.fold ++ p.char :: more.text }

def indicators : List Char :=
  ['-', '?', ':', '#', '&', '*', '!', '|', '>', '\'', '"', '%', '@', '\x60']

def startsPlain (c : Char) : Bool :=
  !isFlowMark c && !isGap c && !isBreak c && !indicators.contains c

end BufferLedger.Yaml
