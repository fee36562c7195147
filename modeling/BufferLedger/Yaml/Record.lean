import BufferLedger.OrderedMap
import BufferLedger.Yaml.Value

/-!
# Records in YAML

A record is a mapping whose keys are names. Tags on values count for nothing, null is a
collection without anything in it, and a key that the record does not know is passed over. A
value that is not what was asked for is nothing.
-/

namespace BufferLedger.Yaml

abbrev Read (α : Type) := Value → Option α

def asString (x : Value) : Option String :=
  match x.untag with
  | .string s => some s
  | _ => none

def asFlag (x : Value) : Option Bool :=
  match x.untag with
  | .bool b => some b
  | _ => none

def asList {α : Type} (read : Read α) (x : Value) : Option (List α) :=
  match x.untag with
  | .sequence items => items.mapM read
  | .null => some []
  | _ => none

def asEntries (x : Value) : Option (List (String × Value)) :=
  match x.untag with
  | .mapping entries => entries.mapM fun (k, v) => do return (← asString k, v)
  | .null => some []
  | _ => none

def nullable {α : Type} (read : Read α) : Read (Option α)
  | .null => some none
  | x => some <$> read x

def asTexts (x : Value) : Option (OrderedMap String String) := do
  (← asEntries x).foldlM (fun m (k, v) => do return m.insert k (← asString v)) .empty

mutual

def isBare : Value → Bool
  | .sequence items => areBare items
  | .mapping entries => areBareEntries entries
  | .tagged .. => false
  | _ => true

def areBare : List Value → Bool
  | [] => true
  | x :: rest => isBare x && areBare rest

def areBareEntries : List (Value × Value) → Bool
  | [] => true
  | (k, v) :: rest => (asString k).isSome && isBare v && areBareEntries rest

end

def asBare (x : Value) : Option Unit :=
  if isBare x then some () else none

structure Field (σ : Type) where
  name : String
  required : Bool
  read : Value → σ → Option σ

namespace Field

variable {σ α : Type}

def mandatory (name : String) (read : Read α) (put : α → σ → σ) : Field σ :=
  ⟨name, true, fun x s => do return put (← read x) s⟩

def optional (name : String) (read : Read α) (put : Option α → σ → σ) : Field σ :=
  ⟨name, false, fun x s => do return put (← nullable read x) s⟩

def standard (name : String) (read : Read α) (put : α → σ → σ) : Field σ :=
  ⟨name, false, fun x s => do return put (← read x) s⟩

def checked (name : String) (read : Read α) : Field σ :=
  .optional name read fun _ s => s

end Field

variable {σ : Type}

def readFields (fields : List (Field σ)) :
    List (String × Value) → List String → σ → Option (List String × σ)
  | [], seen, s => some (seen, s)
  | (key, x) :: rest, seen, s =>
    match fields.find? (·.name == key) with
    | none => readFields fields rest seen s
    | some f =>
      if seen.contains key then none
      else do readFields fields rest (key :: seen) (← f.read x s)

def asRecord (fields : List (Field σ)) (start : σ) (x : Value) : Option σ := do
  let (seen, s) ← readFields fields (← asEntries x) [] start
  if fields.any fun f => f.required && !seen.contains f.name then none else return s

end BufferLedger.Yaml
