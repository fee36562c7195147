import BufferLedger.Yaml.Token.Block
import BufferLedger.Yaml.Token.Plain
import BufferLedger.Yaml.Token.Quoted
import BufferLedger.Yaml.Token.Tag

/-!
# From text to tokens

The reader keeps the columns of the block collections that are open, innermost first, and for
each open flow collection the place at which a key may have begun. Only a colon tells that it is
one, and then the tokens for it go in before it. Where a block collection goes on at its column,
what begins there has to be a key.
-/

namespace BufferLedger.Yaml

structure Candidate where
  number : Nat
  line : Nat
  column : Nat
  index : Nat
  /-- Nothing but a key may stand here. -/
  required : Bool

structure Lexer where
  tokens : Array Token
  margins : List Nat
  keyAllowed : Bool
  candidate : Option Candidate
  outer : List (Option Candidate)

namespace Lexer

def start : Lexer := ⟨#[], [], true, none, []⟩

def inFlow (s : Lexer) : Bool := !s.outer.isEmpty

/-- The least column of what belongs into the innermost block collection. -/
def least (s : Lexer) : Nat :=
  match s.margins with
  | [] => 0
  | m :: _ => m + 1

def push (t : Token) (s : Lexer) : Lexer :=
  { s with tokens := s.tokens.push t }

def insertAt (number : Nat) (t : Token) (s : Lexer) : Lexer :=
  { s with tokens := s.tokens.insertIdxIfInBounds number t }

/-! ## Block collections -/

def close (least : Nat) (s : Lexer) : Lexer :=
  if s.inFlow then s
  else
    let closed := s.margins.takeWhile (least ≤ ·)
    { s with
      tokens := s.tokens ++ Array.replicate closed.length Token.blockEnd
      margins := s.margins.dropWhile (least ≤ ·) }

def openBlock (column number : Nat) (t : Token) (s : Lexer) : Lexer :=
  if s.inFlow || column < s.least then s
  else { s.insertAt number t with margins := column :: s.margins }

/-! ## Candidates for keys -/

def forget? (s : Lexer) : Option Lexer :=
  match s.candidate with
  | some c => if c.required then none else some { s with candidate := none }
  | none => some s

def note? (p : Place) (s : Lexer) : Option Lexer :=
  if s.keyAllowed then do
    let s' ← s.forget?
    let required := !s.inFlow && s.margins.head? == some p.column
    return { s' with candidate := some ⟨s.tokens.size, p.line, p.column, p.index, required⟩ }
  else some s

def maxKey : Nat := 1024

/-- A candidate as it counts at a place: a key is on one line and not too long. -/
def refresh? (p : Place) : Option Candidate → Option (Option Candidate)
  | some c =>
    if c.line < p.line || c.index + maxKey < p.index then
      (if c.required then none else some none)
    else some (some c)
  | none => some none

def refreshAll? (p : Place) (s : Lexer) : Option Lexer := do
  return { s with
    candidate := ← refresh? p s.candidate
    outer := ← s.outer.mapM (refresh? p) }

/-! ## The tokens -/

def openFlow? (p : Place) (t : Token) (s : Lexer) : Option Lexer := do
  let s ← s.note? p
  return { s.push t with
    keyAllowed := true
    candidate := none
    outer := s.candidate :: s.outer }

def closeFlow? (t : Token) (s : Lexer) : Option Lexer := do
  let s := { (← s.forget?).push t with keyAllowed := false }
  match s.outer with
  | c :: outer => return { s with candidate := c, outer }
  | [] => return s

def sign? (p : Place) (collection t : Token) (s : Lexer) : Option Lexer := do
  if !s.inFlow && !s.keyAllowed then none
  let s ← (s.openBlock p.column s.tokens.size collection).forget?
  return s.push t

def colon? (p : Place) (s : Lexer) : Option Lexer :=
  match s.candidate with
  | some c =>
    let s := (s.insertAt c.number .key).openBlock c.column c.number .blockMapping
    some { s.push .value with candidate := none, keyAllowed := false }
  | none =>
    if !s.inFlow && !s.keyAllowed then none
    else
      let s' := s.openBlock p.column s.tokens.size .blockMapping
      some { s'.push .value with keyAllowed := !s.inFlow }

def leaf? (p : Place) (s : Lexer) : Option Lexer := do
  return { ← s.note? p with keyAllowed := false }

abbrev Step := Option (Lexer × List Place)

def plainStep? (s : Lexer) (p : Place) (ps : List Place) : Step := do
  let s ← s.leaf? p
  let found ← plain? s.inFlow s.least .nothing (p :: ps)
  return ({ s.push (.scalar (String.ofList found.text) true) with keyAllowed := found.broken },
    found.rest)

def quotedStep? (s : Lexer) (p : Place) (found : Option (List Char × List Place)) : Step := do
  let s ← s.leaf? p
  let (text, rest) ← found
  return (s.push (.scalar (String.ofList text) false), rest)

def blockStep? (s : Lexer) (folded : Bool) (ps : List Place) : Step := do
  if s.inFlow then none
  let (text, rest) ← blockScalar? folded s.least ps
  let s ← s.forget?
  return ({ s.push (.scalar (String.ofList text) false) with keyAllowed := true }, rest)

def boundary? (s : Lexer) (t : Token) : Option Lexer := do
  return { (← (s.close 0).forget?).push t with keyAllowed := false }

def step? (s : Lexer) (p : Place) (ps : List Place) : Step :=
  let alone (s : Option Lexer) : Step := s.map (·, ps)
  if p.char == '%' && p.column == 0 then do
    let (t, rest) ← directive? ps
    return (← s.boundary? t, rest)
  else if atMarker (p :: ps) then do
    return (← s.boundary? (if p.char == '-' then .documentStart else .documentEnd), ps.drop 2)
  else match p.char with
    | '[' => alone (s.openFlow? p .openSequence)
    | '\x7b' => alone (s.openFlow? p .openMapping)
    | ']' => alone (s.closeFlow? .closeSequence)
    | '\x7d' => alone (s.closeFlow? .closeMapping)
    | ',' => alone do return { (← s.forget?).push .comma with keyAllowed := true }
    | '-' =>
      if atGap ps then
        alone do return { ← s.sign? p .blockSequence .item with keyAllowed := true }
      else s.plainStep? p ps
    | '?' =>
      if s.inFlow || atGap ps then
        alone do return { ← s.sign? p .blockMapping .key with keyAllowed := !s.inFlow }
      else s.plainStep? p ps
    | ':' => if s.inFlow || atGap ps then alone (s.colon? p) else s.plainStep? p ps
    | '*' => do
      let (name, rest) ← reference? ps
      return ((← s.leaf? p).push (.alias name), rest)
    | '&' => do
      let (name, rest) ← reference? ps
      return ((← s.leaf? p).push (.anchor name), rest)
    | '!' => do
      let (t, rest) ← tag? s.inFlow ps
      return ((← s.leaf? p).push t, rest)
    | '|' => s.blockStep? false ps
    | '>' => s.blockStep? true ps
    | '\'' => s.quotedStep? p (singleQuoted? .nothing ps)
    | '"' => s.quotedStep? p (doubleQuoted? (.text .nothing) ps)
    | c => if startsPlain c then s.plainStep? p ps else none

/-- Passes over white space, ends of lines and comments, and tells whether a key may follow. A
tab is passed over only where it cannot be meant as indentation. -/
def skip (flow comment keyAllowed : Bool) : List Place → Bool × List Place
  | [] => (keyAllowed, [])
  | p :: ps =>
    if p.isBreak then skip flow false (keyAllowed || !flow) ps
    else if comment || p.char == ' ' || (p.char == '\t' && (flow || !keyAllowed)) then
      skip flow comment keyAllowed ps
    else if p.char == '#' then skip flow true keyAllowed ps
    else (keyAllowed, p :: ps)

/-- Reads all tokens. Every one takes a character, so that the length of the text is fuel
enough. -/
def run? : Nat → Lexer → List Place → Option (List Token)
  | 0, _, _ => none
  | fuel + 1, s, ps =>
    match skip s.inFlow false s.keyAllowed ps with
    | (_, []) => do
      let s ← (s.close 0).forget?
      return s.tokens.toList
    | (keyAllowed, p :: rest) => do
      let s ← refreshAll? p { s with keyAllowed }
      let (s, rest) ← (s.close (p.column + 1)).step? p rest
      run? fuel s rest

end Lexer

def tokens? (cs : List Char) : Option (List Token) := do
  let ps ← places? cs
  Lexer.run? (ps.length + 1) .start ps

end BufferLedger.Yaml
