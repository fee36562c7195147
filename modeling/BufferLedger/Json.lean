import BufferLedger.Binary64

/-!
# JSON documents

A document is a tree in the order of its text. It may be incomplete: where the text stops
being JSON the tree has a flaw in place of a value, or a container has one in place of its
end, and nothing after it is read. A decoder that walks a tree in order therefore meets its own
complaint or the flaw of the text, whichever comes first. What a flaw counts as depends on what
the decoder was looking for (`Flaw.read`, `Flaw.passed`, `Flaw.tag`).
-/

namespace BufferLedger

inductive Fault
  | ended
  | malformed
  deriving DecidableEq

inductive Flaw
  | ended
  | afterComma
  | word
  | number
  | string (illegible : Bool)
  | unnamed
  | malformed
  deriving DecidableEq

namespace Flaw

def read : Flaw → Fault
  | .ended | .afterComma | .word | .number | .string false => .ended
  | .string true | .unnamed | .malformed => .malformed

/-- What a flaw counts as where a value is passed over: the content of a string does not
matter, but a number has to be whole. -/
def passed : Flaw → Fault
  | .ended | .afterComma | .word | .string _ => .ended
  | .number | .unnamed | .malformed => .malformed

def tag : Flaw → Fault
  | .ended | .unnamed | .string false => .ended
  | .afterComma | .word | .number | .string true | .malformed => .malformed

end Flaw

inductive Json
  | null
  | bool (value : Bool)
  | whole (value : Int)
  | float (value : Binary64)
  | string (value : String)
  /-- A literal of the right form that denotes nothing: a string with half a surrogate pair, or
  a number that is too large. -/
  | illegible
  | array (items : List Json) (cut : Option Flaw)
  | object (fields : List (Option String × Json)) (cut : Option Flaw)
  /-- A container inside more containers than a reader goes into. -/
  | nested (container : Json)
  | flaw (reason : Flaw)

namespace Json

abbrev arrayOf (items : List Json) : Json := .array items none

def objectOf (fields : List (String × Json)) : Json :=
  .object (fields.map fun (k, j) => (some k, j)) none

def passEnd : Option Flaw → Except Fault Unit
  | none => .ok ()
  | some f => .error f.passed

def readEnd : Option Flaw → Except Fault Unit
  | none => .ok ()
  | some f => .error f.read

mutual

/-- Passes over a value that is not wanted: only the form of its text matters. -/
def skip : Json → Except Fault Unit
  | .flaw f => .error f.passed
  | .array items cut => do skipItems items; passEnd cut
  | .object fields cut => do skipFields fields; passEnd cut
  | .nested j => skip j
  | _ => .ok ()

def skipItems : List Json → Except Fault Unit
  | [] => .ok ()
  | j :: rest => do skip j; skipItems rest

def skipFields : List (Option String × Json) → Except Fault Unit
  | [] => .ok ()
  | (_, j) :: rest => do skip j; skipFields rest

end

mutual

/-- Reads a value of any kind to its end: every literal in it has to denote something. -/
def complete : Json → Except Fault Unit
  | .flaw f => .error f.read
  | .illegible | .nested _ => .error .malformed
  | .array items cut => do completeItems items; readEnd cut
  | .object fields cut => do completeFields fields; readEnd cut
  | _ => .ok ()

def completeItems : List Json → Except Fault Unit
  | [] => .ok ()
  | j :: rest => do complete j; completeItems rest

def completeFields : List (Option String × Json) → Except Fault Unit
  | [] => .ok ()
  | (some _, j) :: rest => do complete j; completeFields rest
  | (none, _) :: _ => .error .malformed

end

def field? (name : String) : Json → Option Json
  | .object fields _ => (fields.reverse.find? (·.1 == some name)).map (·.2)
  | _ => none

end Json

end BufferLedger
