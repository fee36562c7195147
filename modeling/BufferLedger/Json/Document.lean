import BufferLedger.Json.Token

/-!
# Documents from tokens

The tree of a document is built from its tokens with a stack of the containers that are still
open. Where the tokens stop making sense the open containers are closed by a fault.
-/

namespace BufferLedger.Json

inductive Frame
  | array (items : List Json)
  | object (fields : List (Option String × Json)) (name : Option String)

inductive Expected
  | value
  | firstItem
  | firstField
  | field
  | colon
  | separator

structure Document where
  value : Json
  trailing : Bool

def maxDepth : Nat := 127

def inside (stack : List Frame) (container : Json) : Json :=
  if stack.length < maxDepth then container else .nested container

def closeAll (reason : Flaw) : List Frame → Json → Json
  | [], j => j
  | .array items :: stack, j =>
    closeAll reason stack (inside stack (.array (j :: items).reverse (some reason)))
  | .object fields name :: stack, j =>
    closeAll reason stack (inside stack (.object ((name, j) :: fields).reverse (some reason)))

def cutAtValue (reason : Flaw) (stack : List Frame) : Document :=
  ⟨closeAll reason stack (.flaw reason), false⟩

def cutInside (reason : Flaw) : List Frame → Document
  | [] => ⟨.flaw reason, false⟩
  | .array items :: stack =>
    ⟨closeAll reason stack (inside stack (.array items.reverse (some reason))), false⟩
  | .object fields _ :: stack =>
    ⟨closeAll reason stack (inside stack (.object fields.reverse (some reason))), false⟩

def Token.flaw : Token → Flaw
  | .broken f => f
  | _ => .malformed

def Token.nameFlaw : Token → Flaw
  | .broken .word | .broken .number => .unnamed
  | .broken f => f
  | _ => .malformed

def endOfText (expected : Expected) (stack : List Frame) : Document :=
  match expected with
  | .value | .colon => cutAtValue .ended stack
  | .firstItem | .firstField | .separator => cutInside .ended stack
  | .field => cutInside .afterComma stack

def build : List Token → Expected → List Frame → Document
  | [], expected, stack => endOfText expected stack
  | t :: ts, expected, stack =>
    /- A value is finished: it is the document, or a part of the innermost container. -/
    let finish (j : Json) (stack : List Frame) : Document :=
      match stack with
      | [] => ⟨j, !ts.isEmpty⟩
      | .array items :: stack => build ts .separator (.array (j :: items) :: stack)
      | .object fields name :: stack =>
        build ts .separator (.object ((name, j) :: fields) name :: stack)
    /- A token where a value may stand. -/
    let value (t : Token) : Document :=
      match t with
      | .literal j => finish j stack
      | .string (some s) => finish (.string s) stack
      | .string none => finish .illegible stack
      | .openArray => build ts .firstItem (.array [] :: stack)
      | .openObject => build ts .firstField (.object [] none :: stack)
      | t => cutAtValue t.flaw stack
    /- A token where the name of a field may stand. -/
    let field (t : Token) : Document :=
      match t, stack with
      | .string name, .object fields _ :: stack => build ts .colon (.object fields name :: stack)
      | t, stack => cutInside t.nameFlaw stack
    match expected, t, stack with
    | .value, t, _ => value t
    | .firstItem, .closeArray, .array items :: stack =>
      finish (inside stack (.array items.reverse none)) stack
    | .firstItem, t, _ => value t
    | .firstField, .closeObject, .object fields _ :: stack =>
      finish (inside stack (.object fields.reverse none)) stack
    | .firstField, t, _ => field t
    | .field, t, _ => field t
    | .colon, .colon, _ => build ts .value stack
    | .colon, _, _ => cutAtValue .malformed stack
    | .separator, .comma, .array items :: stack => build ts .value (.array items :: stack)
    | .separator, .closeArray, .array items :: stack =>
      finish (inside stack (.array items.reverse none)) stack
    | .separator, .comma, .object fields name :: stack =>
      build ts .field (.object fields name :: stack)
    | .separator, .closeObject, .object fields _ :: stack =>
      finish (inside stack (.object fields.reverse none)) stack
    | .separator, _, stack => cutInside .malformed stack

def read (text : String) : Document :=
  build (tokens text.toList) .value []

def parse? (text : String) : Option Json :=
  let d := read text
  match d.value.complete with
  | .ok _ => if d.trailing then none else some d.value
  | .error _ => none

end BufferLedger.Json
