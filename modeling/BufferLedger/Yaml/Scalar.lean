import BufferLedger.Binary64.Decimal
import BufferLedger.Yaml.Token
import BufferLedger.Yaml.Value

/-!
# What scalars denote

A plain scalar is null, a truth value or a number if it has the form of one, and a string
otherwise; any other scalar is a string. A tag of the core schema asks for one of these forms.
-/

namespace BufferLedger.Yaml

open Text

def isNullWord (cs : List Char) : Bool :=
  ["~", "null", "Null", "NULL"].contains (String.ofList cs)

def truth? (cs : List Char) : Option Bool :=
  match String.ofList cs with
  | "true" | "True" | "TRUE" => some true
  | "false" | "False" | "FALSE" => some false
  | _ => none

def isPadded (cs : List Char) : Bool :=
  match (Decimal.splitSign cs).2 with
  | '0' :: c :: rest => (c :: rest).all isDigit
  | _ => false

def natural? : List Char → Option Nat
  | '0' :: 'x' :: cs => readInBase? 16 cs
  | '0' :: 'o' :: cs => readInBase? 8 cs
  | '0' :: 'b' :: cs => readInBase? 2 cs
  | cs => if isPadded cs then none else readInBase? 10 cs

def whole? (cs : List Char) : Option Int :=
  let (negative, run) := Decimal.splitSign cs
  (natural? run).map fun n => if negative then -(n : Int) else n

def fitsBits (bits : Nat) (n : Int) : Bool :=
  if n < 0 then n.natAbs ≤ twoTo (bits - 1) else n.natAbs < twoTo bits

def float? (cs : List Char) : Option Binary64 :=
  let (negative, run) := Decimal.splitSign cs
  match String.ofList run with
  | ".inf" | ".Inf" | ".INF" => some (.infinity negative)
  | ".nan" | ".NaN" | ".NAN" => if run = cs then some .nan else none
  | _ => ((Decimal.readUnsigned? negative run).map Decimal.toBinary64).filter Binary64.isFinite

/-- What a plain scalar denotes; nothing if it is a whole number between the word sizes. -/
def plainValue? (cs : List Char) : Option Value :=
  if cs.isEmpty || isNullWord cs then some .null
  else match truth? cs with
    | some b => some (.bool b)
    | none =>
      match (whole? cs).filter (fitsBits 128) with
      | some n => if fitsBits 64 n then some (.int n) else none
      | none =>
        match (if isPadded cs then none else float? cs) with
        | some x => some (.float x)
        | none => some (.string (String.ofList cs))

inductive CoreTag
  | null
  | bool
  | int
  | float
  deriving DecidableEq

namespace CoreTag

def word : CoreTag → String
  | .null => "null"
  | .bool => "bool"
  | .int => "int"
  | .float => "float"

def octets (t : CoreTag) : Octets :=
  Yaml.octets ("tag:yaml.org,2002:" ++ t.word).toList

def ofOctets? (tag : Octets) : Option CoreTag :=
  [CoreTag.null, .bool, .int, .float].find? fun t => t.octets == tag

def value? (cs : List Char) : CoreTag → Option Value
  | .null => if isNullWord cs then some .null else none
  | .bool => (truth? cs).map .bool
  | .int => ((whole? cs).filter (fitsBits 64)).map .int
  | .float => (float? cs).map .float

end CoreTag

def isOwnTag (tag : Octets) : Bool :=
  tag.head? == (octets ['!']).head?

def ownName? (tag : Octets) : Option String :=
  if isOwnTag tag then Octets.text? (tag.drop 1) else none

/-- Puts a tag on a value. An empty name is refused, and other tags say nothing here. -/
def applyTag? (tag : Option Octets) (x : Value) : Option Value :=
  match tag.bind ownName? with
  | some name => if name = "" then none else some (.tagged name x)
  | none => some x

def scalarValue? (tag : Option Octets) (text : String) (plain : Bool) : Option Value :=
  let bare := if plain then plainValue? text.toList else some (.string text)
  match tag with
  | none => bare
  | some t =>
    if isOwnTag t then bare.bind (applyTag? tag)
    else match CoreTag.ofOctets? t with
      | some core => core.value? text.toList
      | none => some (.string text)

end BufferLedger.Yaml
