import BufferLedger.Json.Record
import BufferLedger.Time.Moment

/-!
# Where objects come from

The owners of an object, and the records of who set which of its fields. Nothing is decided by
them here, but an object in which they have another form is not read.
-/

namespace BufferLedger

open Json

def givenField {α : Type} (name : String) (encode : α → Json) (value : Option α) :
    List (String × Json) :=
  value.toList.map fun x => (name, encode x)

def decodeEach {α : Type} (decode : Json → Decoded Empty α) : List Json → Decoded Empty (List α)
  | [] => .ok []
  | j :: rest => do
    let x ← decode j
    return x :: (← decodeEach decode rest)

def asEach {α : Type} (decode : Json → Decoded Empty α) : Json → Decoded Empty (List α)
  | .array items cut => do
    let xs ← decodeEach decode items
    liftFault (readEnd cut)
    return xs
  | j => .error (otherForm j)

def asMoment (j : Json) : Decoded Empty Moment := do
  match Moment.ofText? (← asString j) with
  | some m => return m
  | none => .error .mismatch

def asAnything (j : Json) : Decoded Empty Json := do
  liftFault (complete j)
  return j

def encodeEach {α : Type} (encode : α → Json) (xs : List α) : Json :=
  .arrayOf (xs.map encode)

def encodeMoment (m : Moment) : Json := .string m.text

structure Owner where
  apiVersion : String
  kind : String
  name : String
  uid : String
  blocksDeletion : Option Bool
  isController : Option Bool
  deriving DecidableEq

namespace Owner

def textField (name : String) (put : String → Owner → Owner) : Field Empty Owner :=
  .optional name asString fun x o => put (x.getD "") o

def fields : List (Field Empty Owner) :=
  [textField "apiVersion" fun x o => { o with apiVersion := x },
   .optional "blockOwnerDeletion" asFlag fun x o => { o with blocksDeletion := x },
   .optional "controller" asFlag fun x o => { o with isController := x },
   textField "kind" fun x o => { o with kind := x },
   textField "name" fun x o => { o with name := x },
   textField "uid" fun x o => { o with uid := x }]

def decode : Json → Decoded Empty Owner :=
  asObject false fields ⟨"", "", "", "", none, none⟩

def encode (o : Owner) : Json :=
  .objectOf <|
    [("apiVersion", .string o.apiVersion)] ++
    givenField "blockOwnerDeletion" .bool o.blocksDeletion ++
    givenField "controller" .bool o.isController ++
    [("kind", .string o.kind), ("name", .string o.name), ("uid", .string o.uid)]

end Owner

structure FieldRecord where
  apiVersion : Option String
  fieldsType : Option String
  fieldSet : Option Json
  manager : Option String
  operation : Option String
  subresource : Option String
  time : Option Moment

namespace FieldRecord

def fields : List (Field Empty FieldRecord) :=
  [.optional "apiVersion" asString fun x r => { r with apiVersion := x },
   .optional "fieldsType" asString fun x r => { r with fieldsType := x },
   .optional "fieldsV1" asAnything fun x r => { r with fieldSet := x },
   .optional "manager" asString fun x r => { r with manager := x },
   .optional "operation" asString fun x r => { r with operation := x },
   .optional "subresource" asString fun x r => { r with subresource := x },
   .optional "time" asMoment fun x r => { r with time := x }]

def decode : Json → Decoded Empty FieldRecord :=
  asObject false fields ⟨none, none, none, none, none, none, none⟩

def encode (r : FieldRecord) : Json :=
  .objectOf <|
    givenField "apiVersion" .string r.apiVersion ++
    givenField "fieldsType" .string r.fieldsType ++
    givenField "fieldsV1" id r.fieldSet ++
    givenField "manager" .string r.manager ++
    givenField "operation" .string r.operation ++
    givenField "subresource" .string r.subresource ++
    givenField "time" encodeMoment r.time

end FieldRecord

end BufferLedger
