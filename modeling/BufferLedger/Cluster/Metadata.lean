import BufferLedger.Cluster.Provenance

/-!
# Object metadata

The part that all cluster objects share. An object's name is its own, or else the stem that
its name is generated from.
-/

namespace BufferLedger

open Json

abbrev Texts := OrderedMap String String

structure Metadata where
  name : Option String
  generateName : Option String
  space : Option String
  version : Option String
  labels : Option Texts
  annotations : Option Texts
  created : Option Moment
  deleted : Option Moment
  gracePeriod : Option Int
  finalizers : Option (List String)
  generation : Option Int
  owners : Option (List Owner)
  fieldRecords : Option (List FieldRecord)
  selfLink : Option String
  uid : Option String

namespace Metadata

def empty : Metadata :=
  ⟨none, none, none, none, none, none, none, none, none, none, none, none, none, none, none⟩

def key (m : Metadata) : Key :=
  ⟨m.space.getD "", (m.name <|> m.generateName).getD ""⟩

def label? (m : Metadata) (name : String) : Option String :=
  m.labels.bind (·.get? name)

def note? (m : Metadata) (name : String) : Option String :=
  m.annotations.bind (·.get? name)

def fields : List (Field Empty Metadata) :=
  [.optional "annotations" asTexts fun x m => { m with annotations := x },
   .optional "creationTimestamp" asMoment fun x m => { m with created := x },
   .optional "deletionGracePeriodSeconds" asInteger fun x m => { m with gracePeriod := x },
   .optional "deletionTimestamp" asMoment fun x m => { m with deleted := x },
   .optional "finalizers" (asEach asString) fun x m => { m with finalizers := x },
   .optional "generateName" asString fun x m => { m with generateName := x },
   .optional "generation" asInteger fun x m => { m with generation := x },
   .optional "labels" asTexts fun x m => { m with labels := x },
   .optional "managedFields" (asEach FieldRecord.decode) fun x m => { m with fieldRecords := x },
   .optional "name" asString fun x m => { m with name := x },
   .optional "namespace" asString fun x m => { m with space := x },
   .optional "ownerReferences" (asEach Owner.decode) fun x m => { m with owners := x },
   .optional "resourceVersion" asString fun x m => { m with version := x },
   .optional "selfLink" asString fun x m => { m with selfLink := x },
   .optional "uid" asString fun x m => { m with uid := x }]

def decode : Json → Decoded Empty Metadata :=
  asObject false fields empty

def encodeTexts (texts : Texts) : Json :=
  .objectOf (texts.toList.map fun (k, v) => (k, .string v))

def encode (m : Metadata) : Json :=
  .objectOf <|
    givenField "annotations" encodeTexts m.annotations ++
    givenField "creationTimestamp" encodeMoment m.created ++
    givenField "deletionGracePeriodSeconds" .whole m.gracePeriod ++
    givenField "deletionTimestamp" encodeMoment m.deleted ++
    givenField "finalizers" (encodeEach .string) m.finalizers ++
    givenField "generateName" .string m.generateName ++
    givenField "generation" .whole m.generation ++
    givenField "labels" encodeTexts m.labels ++
    givenField "managedFields" (encodeEach FieldRecord.encode) m.fieldRecords ++
    givenField "name" .string m.name ++
    givenField "namespace" .string m.space ++
    givenField "ownerReferences" (encodeEach Owner.encode) m.owners ++
    givenField "resourceVersion" .string m.version ++
    givenField "selfLink" .string m.selfLink ++
    givenField "uid" .string m.uid

end Metadata

class ClusterObject (α : Type) where
  metadata : α → Metadata
  decode : Json → Decoded Empty α

namespace ClusterObject

variable {α : Type} [ClusterObject α]

def key (x : α) : Key := (metadata x).key

def version (x : α) : Option String := (metadata x).version

end ClusterObject

end BufferLedger
