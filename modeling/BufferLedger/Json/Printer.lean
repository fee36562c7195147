import BufferLedger.Json
import BufferLedger.Binary64.Shortest

/-!
# Writing JSON

The compact text of a document: no white space, the fields in their order, and in strings only
the quote, the backslash and the control characters escaped.
-/

namespace BufferLedger.Json

def hexDigit (n : Nat) : Char :=
  (Nat.digitChar n)

def escape (c : Char) : List Char :=
  match c with
  | '"' => ['\\', '"']
  | '\\' => ['\\', '\\']
  | '\n' => ['\\', 'n']
  | '\r' => ['\\', 'r']
  | '\t' => ['\\', 't']
  | '\x08' => ['\\', 'b']
  | '\x0c' => ['\\', 'f']
  | c =>
    if c.toNat < 0x20 then
      ['\\', 'u', '0', '0', hexDigit (c.toNat / 16), hexDigit (c.toNat % 16)]
    else [c]

def quote (s : String) : String :=
  String.ofList ('"' :: s.toList.flatMap escape ++ ['"'])

mutual

/-- The text of a document; what a text failed to denote is written as null, and
as an empty name. -/
def render : Json → String
  | .null | .illegible | .flaw _ => "null"
  | .bool b => if b then "true" else "false"
  | .whole n => toString n
  | .float x => x.literal
  | .string s => quote s
  | .array items _ => "[" ++ renderItems items ++ "]"
  | .object fields _ => "\x7b" ++ renderFields fields ++ "\x7d"
  | .nested j => render j

def renderItems : List Json → String
  | [] => ""
  | [j] => render j
  | j :: rest => render j ++ "," ++ renderItems rest

def renderFields : List (Option String × Json) → String
  | [] => ""
  | [(k, j)] => quote (k.getD "") ++ ":" ++ render j
  | (k, j) :: rest => quote (k.getD "") ++ ":" ++ render j ++ "," ++ renderFields rest

end

end BufferLedger.Json
