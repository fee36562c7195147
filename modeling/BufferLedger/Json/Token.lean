import BufferLedger.Json.Number

/-!
# JSON tokens

A text is cut into tokens by a machine that takes one character at a time, so that a fault is
always the first one in the order of the text. `tokens` is total by construction: it is a fold
over the characters.
-/

namespace BufferLedger.Json

open Text

inductive Token
  | openArray
  | closeArray
  | openObject
  | closeObject
  | colon
  | comma
  | literal (value : Json)
  | string (value : Option String)
  | broken (reason : Flaw)

inductive NumberPart
  | minus
  | zero (negative : Bool)
  | whole (negative : Bool) (digits : List Char)
  | point (negative : Bool) (whole : List Char)
  | fraction (negative : Bool) (whole fraction : List Char)
  | exponentMark (negative : Bool) (whole : List Char) (fraction : Option (List Char))
  | exponentSign (negative : Bool) (whole : List Char) (fraction : Option (List Char))
      (down : Bool)
  | exponent (negative : Bool) (whole : List Char) (fraction : Option (List Char)) (down : Bool)
      (digits : List Char)

namespace NumberPart

def value? : NumberPart → Option Json
  | .zero negative => some (NumberLiteral.toJson ⟨negative, ['0'], none, none⟩)
  | .whole negative ds => some (NumberLiteral.toJson ⟨negative, ds.reverse, none, none⟩)
  | .fraction negative front ds =>
    some (NumberLiteral.toJson ⟨negative, front.reverse, some ds.reverse, none⟩)
  | .exponent negative front behind down ds =>
    let n : Int := ofDigits ds.reverse
    some (NumberLiteral.toJson
      ⟨negative, front.reverse, behind.map List.reverse, some (if down then -n else n)⟩)
  | _ => none

def push? (c : Char) : NumberPart → Option NumberPart
  | .minus =>
    if c == '0' then some (.zero true)
    else if isDigit c then some (.whole true [c])
    else none
  | .zero negative =>
    if c == '.' then some (.point negative ['0'])
    else if c == 'e' || c == 'E' then some (.exponentMark negative ['0'] none)
    else none
  | .whole negative ds =>
    if isDigit c then some (.whole negative (c :: ds))
    else if c == '.' then some (.point negative ds)
    else if c == 'e' || c == 'E' then some (.exponentMark negative ds none)
    else none
  | .point negative front =>
    if isDigit c then some (.fraction negative front [c]) else none
  | .fraction negative front ds =>
    if isDigit c then some (.fraction negative front (c :: ds))
    else if c == 'e' || c == 'E' then some (.exponentMark negative front (some ds))
    else none
  | .exponentMark negative front behind =>
    if isDigit c then some (.exponent negative front behind false [c])
    else if c == '+' then some (.exponentSign negative front behind false)
    else if c == '-' then some (.exponentSign negative front behind true)
    else none
  | .exponentSign negative front behind down =>
    if isDigit c then some (.exponent negative front behind down [c]) else none
  | .exponent negative front behind down ds =>
    if isDigit c then some (.exponent negative front behind down (c :: ds)) else none

end NumberPart

inductive StringPart
  | plain
  | escape
  /-- An escape by number, with the bytes that are still to come and the value, unless something
  else than a digit came. The escape is only judged once it is there in full. -/
  | code (missing : Nat) (value : Option Nat)

/-- What has been read of a string: its characters last first, or nothing once it contains half
a surrogate pair; and the first half of a pair whose second half has to come next. -/
structure StringState where
  spot : StringPart
  chars : Option (List Char)
  half : Option Nat

inductive Scan
  | between
  | word (missing : List Char) (value : Json)
  | number (part : NumberPart)
  | string (state : StringState)
  | stopped

def isSpace (c : Char) : Bool :=
  c == ' ' || c == '\n' || c == '\t' || c == '\r'

def escaped? : Char → Option Char
  | '"' => some '"'
  | '\\' => some '\\'
  | '/' => some '/'
  | 'b' => some '\x08'
  | 'f' => some '\x0c'
  | 'n' => some '\n'
  | 'r' => some '\r'
  | 't' => some '\t'
  | _ => none

namespace StringState

def start : StringState := ⟨.plain, some [], none⟩

def add (c : Char) (s : StringState) : StringState :=
  { s with
    spot := .plain
    chars := if s.half.isSome then none else s.chars.map (c :: ·)
    half := none }

def addCode (n : Nat) (s : StringState) : StringState :=
  let low := 0xDC00 ≤ n && n < 0xE000
  let high := 0xD800 ≤ n && n < 0xDC00
  match s.half with
  | some h =>
    if low then
      let c := Char.ofNat (0x10000 + (h - 0xD800) * 0x400 + (n - 0xDC00))
      { s with spot := .plain, chars := s.chars.map (c :: ·), half := none }
    else { s with spot := .plain, chars := none, half := none }
  | none =>
    if high then { s with spot := .plain, half := some n }
    else if low then { s with spot := .plain, chars := none }
    else s.add (Char.ofNat n)

def value? (s : StringState) : Option String :=
  if s.half.isSome then none else s.chars.map fun cs => String.ofList cs.reverse

end StringState

def malformed : Scan × List Token := (.stopped, [.broken .malformed])

def codeBytes : Nat := 4

def scanStart (c : Char) : Scan × List Token :=
  if isSpace c then (.between, [])
  else if isDigit c then (.number (if c == '0' then .zero false else .whole false [c]), [])
  else match c with
    | '-' => (.number .minus, [])
    | '"' => (.string .start, [])
    | 't' => (.word ['r', 'u', 'e'] (.bool true), [])
    | 'f' => (.word ['a', 'l', 's', 'e'] (.bool false), [])
    | 'n' => (.word ['u', 'l', 'l'] .null, [])
    | '[' => (.between, [.openArray])
    | ']' => (.between, [.closeArray])
    | '{' => (.between, [.openObject])
    | '}' => (.between, [.closeObject])
    | ':' => (.between, [.colon])
    | ',' => (.between, [.comma])
    | _ => malformed

def scanString (c : Char) (s : StringState) : Scan × List Token :=
  match s.spot with
  | .plain =>
    if c == '"' then (.between, [.string s.value?])
    else if c == '\\' then (.string { s with spot := .escape }, [])
    else if c.toNat < 0x20 then malformed
    else (.string (s.add c), [])
  | .escape =>
    if c == 'u' then (.string { s with spot := .code codeBytes (some 0) }, [])
    else match escaped? c with
      | some c => (.string (s.add c), [])
      | none => malformed
  | .code missing value =>
    let value := do return 16 * (← value) + (← hexValue? c)
    if c.utf8Size < missing then
      (.string { s with spot := .code (missing - c.utf8Size) value }, [])
    else match value with
      | some n => (.string (s.addCode n), [])
      | none => malformed

/-- One character in any state. A number ends where the next character no longer belongs to
it; that character starts the next token. -/
def scan (c : Char) : Scan → Scan × List Token
  | .between => scanStart c
  | .word missing value =>
    match missing with
    | [d] => if c == d then (.between, [.literal value]) else malformed
    | d :: ds => if c == d then (.word ds value, []) else (.stopped, [.broken .malformed])
    | [] => (.stopped, [.broken .malformed])
  | .string s => scanString c s
  | .number part =>
    match part.push? c with
    | some part => (.number part, [])
    | none =>
      match part.value? with
      | none => malformed
      | some value =>
        -- A zero is never followed by another digit.
        if isDigit c then malformed
        else
          let (state, tokens) := scanStart c
          (state, .literal value :: tokens)
  | .stopped => (.stopped, [])

def scanEnd : Scan → List Token
  | .between | .stopped => []
  | .word .. => [.broken .word]
  | .string s => [.broken (.string s.chars.isNone)]
  | .number part =>
    match part.value? with
    | some value => [.literal value]
    | none => [.broken .number]

def tokensFrom (state : Scan) : List Char → List Token
  | [] => scanEnd state
  | c :: cs =>
    let (state, found) := scan c state
    found ++ tokensFrom state cs

def tokens (cs : List Char) : List Token :=
  tokensFrom .between cs

end BufferLedger.Json
