import BufferLedger.Yaml.Source

/-!
# Folding

White space between the words of a scalar. Within a line it stays as it is; around ends of lines
it is dropped, a single end of line becomes a blank, and of several ones the first is dropped.
-/

namespace BufferLedger.Yaml

inductive Gap
  | blanks (chars : List Char)
  /-- There was an end of line; the first is missing if it was escaped. -/
  | breaks (first : Option Char) (more : List Char)

namespace Gap

def nothing : Gap := .blanks []

def isNothing : Gap → Bool
  | .blanks [] => true
  | _ => false

def isBroken : Gap → Bool
  | .blanks _ => false
  | .breaks .. => true

def addBlank (c : Char) : Gap → Gap
  | .blanks cs => .blanks (cs ++ [c])
  | g => g

def addBreak (c : Char) : Gap → Gap
  | .blanks _ => .breaks (some c) []
  | .breaks first more => .breaks first (more ++ [c])

def fold : Gap → List Char
  | .blanks cs => cs
  | .breaks (some '\n') [] => [' ']
  | .breaks (some '\n') more => more
  | .breaks first more => first.toList ++ more

end Gap

end BufferLedger.Yaml
