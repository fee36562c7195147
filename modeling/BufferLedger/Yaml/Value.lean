import BufferLedger.Binary64

/-!
# YAML values

What a document denotes. The keys of a mapping can be any values, and no two of them are the
same; a tag of one's own stays with the value that it is put on.
-/

namespace BufferLedger.Yaml

inductive Value
  | null
  | bool (value : Bool)
  | int (value : Int)
  | float (value : Binary64)
  | string (value : String)
  | sequence (items : List Value)
  | mapping (entries : List (Value × Value))
  | tagged (name : String) (value : Value)

namespace Value

/-- Whether two numbers are the same key: all that are not numbers are one, and zero has no
sign. -/
def sameFloat (x y : Binary64) : Bool :=
  x = y || (x.isZero && y.isZero)

def bareName (name : String) : List Char :=
  match name.toList with
  | '!' :: cs => cs
  | cs => cs

mutual

/-- Whether two values are the same key. The order of a mapping counts for nothing. -/
def same : Value → Value → Bool
  | .null, .null => true
  | .bool a, .bool b => a == b
  | .int a, .int b => a == b
  | .float x, .float y => sameFloat x y
  | .string s, .string t => s == t
  | .sequence xs, .sequence ys => sameItems xs ys
  | .mapping xs, .mapping ys => xs.length == ys.length && within xs ys
  | .tagged name x, .tagged name' y => bareName name == bareName name' && same x y
  | _, _ => false

def sameItems : List Value → List Value → Bool
  | [], [] => true
  | x :: xs, y :: ys => same x y && sameItems xs ys
  | _, _ => false

def within : List (Value × Value) → List (Value × Value) → Bool
  | [], _ => true
  | (k, v) :: rest, ys => ys.any (fun y => same k y.1 && same v y.2) && within rest ys

end

def untag : Value → Value
  | .tagged _ x => untag x
  | x => x

end Value

end BufferLedger.Yaml
