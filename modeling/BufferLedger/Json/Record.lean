import BufferLedger.Json.Document
import BufferLedger.OrderedMap
import BufferLedger.Text.Digits

/-!
# Decoding records

A record is described by its fields in order. It is written as an object, where fields that it
does not have are passed over and none of its own may come twice, or as an array of its fields.
Decoders walk a document in the order of its text and report the first thing that is wrong.
-/

namespace BufferLedger.Json

open Text

inductive DecodeError (ε : Type)
  | fault (reason : Fault)
  | mismatch
  | refused (reason : ε)
  deriving DecidableEq

variable {ε σ α : Type}

abbrev Decoded (ε α : Type) := Except (DecodeError ε) α

def liftFault (r : Except Fault α) : Decoded ε α :=
  r.mapError .fault

def otherForm : Json → DecodeError ε
  | .flaw f => .fault f.read
  | .illegible | .nested _ => .fault .malformed
  | _ => .mismatch

def asString : Json → Decoded ε String
  | .string s => .ok s
  | j => .error (otherForm j)

def asFlag : Json → Decoded ε Bool
  | .bool b => .ok b
  | j => .error (otherForm j)

def asWord32 : Json → Decoded ε Nat
  | .whole n => if 0 ≤ n ∧ n ≤ word32Max then .ok n.toNat else .error .mismatch
  | j => .error (otherForm j)

def asInteger : Json → Decoded ε Int
  | .whole n => if n < twoTo 63 then .ok n else .error .mismatch
  | j => .error (otherForm j)

def nullable (decode : Json → Decoded ε α) : Json → Decoded ε (Option α)
  | .null => .ok none
  | j => some <$> decode j

structure Field (ε σ : Type) where
  name : String
  required : Bool
  read : Json → σ → Decoded ε σ

def Field.mandatory (name : String) (decode : Json → Decoded ε α) (put : α → σ → σ) :
    Field ε σ :=
  ⟨name, true, fun j s => do return put (← decode j) s⟩

def Field.optional (name : String) (decode : Json → Decoded ε α) (put : Option α → σ → σ) :
    Field ε σ :=
  ⟨name, false, fun j s => do return put (← nullable decode j) s⟩

/-- Reads the fields of an object. With `once` a field of the record may not be repeated,
otherwise its last value counts. -/
def readFields (fields : List (Field ε σ)) (once : Bool) :
    List (Option String × Json) → List String → σ → Decoded ε (List String × σ)
  | [], seen, s => .ok (seen, s)
  | (none, _) :: _, _, _ => .error (.fault .malformed)
  | (some key, j) :: rest, seen, s =>
    match fields.find? (·.name == key) with
    | none => do
      liftFault (skip j)
      readFields fields once rest seen s
    | some f =>
      if once && seen.contains key then .error .mismatch
      else do readFields fields once rest (key :: seen) (← f.read j s)

/-- Reads the items of an array as the fields of a record in order. Only fields that are not
required may be missing. -/
def readItems : List (Field ε σ) → List Json → Option Flaw → σ → Decoded ε σ
  | [], [], cut, s => do liftFault (readEnd cut); return s
  | [], _ :: _, _, _ => .error .mismatch
  | f :: fields, [], cut, s => do
    liftFault (readEnd cut)
    if (f :: fields).any (·.required) then .error .mismatch else return s
  | f :: fields, j :: rest, cut, s => do readItems fields rest cut (← f.read j s)

def complain (fields : List (Field ε σ)) (seen : List String) : Decoded ε Unit :=
  if fields.any fun f => f.required && !seen.contains f.name then .error .mismatch else .ok ()

def asObject (once : Bool) (fields : List (Field ε σ)) (start : σ) : Json → Decoded ε σ
  | .object entries cut => do
    let (seen, s) ← readFields fields once entries [] start
    liftFault (readEnd cut)
    complain fields seen
    return s
  | j => .error (otherForm j)

def asRecord (fields : List (Field ε σ)) (start : σ) : Json → Decoded ε σ
  | .array items cut => readItems fields items cut start
  | j => asObject true fields start j

def readTexts : List (Option String × Json) → OrderedMap String String →
    Decoded ε (OrderedMap String String)
  | [], m => .ok m
  | (none, _) :: _, _ => .error (.fault .malformed)
  | (some key, j) :: rest, m => do readTexts rest (m.insert key (← asString j))

def asTexts : Json → Decoded ε (OrderedMap String String)
  | .object entries cut => do
    let m ← readTexts entries .empty
    liftFault (readEnd cut)
    return m
  | j => .error (otherForm j)

def decodeText (decode : Json → Decoded ε α) (text : String) : Decoded ε α := do
  let d := read text
  let a ← decode d.value
  if d.trailing then .error (.fault .malformed) else return a

end BufferLedger.Json
