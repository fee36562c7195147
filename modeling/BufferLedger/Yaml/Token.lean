import BufferLedger.Text.Octets

/-!
# YAML tokens

What a text is cut into. The structure that a block has by its indentation is written out:
tokens stand for the begin and the end of a block collection and for a key of which only the
colon behind it tells that it is one.
-/

namespace BufferLedger.Yaml

def octets (cs : List Char) : Octets :=
  Octets.ofText (String.ofList cs)

inductive Token
  | version (known : Bool)
  | handle (name : String) (start : Octets)
  | documentStart
  | documentEnd
  | blockSequence
  | blockMapping
  | blockEnd
  | openSequence
  | closeSequence
  | openMapping
  | closeMapping
  | item
  | comma
  | key
  | value
  | alias (name : String)
  | anchor (name : String)
  | tag (handle : Option String) (rest : Octets)
  /-- A scalar is plain if it has no quotes and is no block. -/
  | scalar (text : String) (plain : Bool)
  deriving DecidableEq

end BufferLedger.Yaml
