import BufferLedger.OrderedMap
import BufferLedger.Yaml.Token

/-!
# Documents as they are written

The tree of a document before its aliases and tags are interpreted, and the reading of the
documents from tokens. An anchor takes a slot; an alias stands for the slot of its name at the
place where it is written.
-/

namespace BufferLedger.Yaml

structure Marks where
  slot : Option Nat
  tag : Option Octets

namespace Marks

def none : Marks := ⟨.none, .none⟩

def isNone (m : Marks) : Bool :=
  m.slot.isNone && m.tag.isNone

/-- The tag of a scalar. A mere exclamation mark says nothing about one. -/
def forScalar (m : Marks) : Marks :=
  { m with tag := m.tag.filter (· ≠ octets ['!']) }

end Marks

inductive Node
  | alias (slot : Nat)
  | scalar (marks : Marks) (text : String) (plain : Bool)
  | sequence (marks : Marks) (items : List Node)
  | mapping (marks : Marks) (entries : List (Node × Node))

namespace Node

def empty (marks : Marks) : Node := .scalar marks "" true

mutual

def weight : Node → Nat
  | .alias _ => 1
  | .scalar .. => 1
  | .sequence _ items => weightItems items + 2
  | .mapping _ entries => weightEntries entries + 2

def weightItems : List Node → Nat
  | [] => 0
  | x :: rest => weight x + weightItems rest

def weightEntries : List (Node × Node) → Nat
  | [] => 0
  | (k, v) :: rest => weight k + weight v + weightEntries rest

end

def atSlot (marks : Marks) (x : Node) : List (Nat × Node) :=
  (marks.slot.map (·, x)).toList

mutual

def anchored : Node → List (Nat × Node)
  | .alias _ => []
  | .scalar marks text plain => atSlot marks (.scalar marks text plain)
  | .sequence marks items => atSlot marks (.sequence marks items) ++ anchoredItems items
  | .mapping marks entries => atSlot marks (.mapping marks entries) ++ anchoredEntries entries

def anchoredItems : List Node → List (Nat × Node)
  | [] => []
  | x :: rest => anchored x ++ anchoredItems rest

def anchoredEntries : List (Node × Node) → List (Nat × Node)
  | [] => []
  | (k, v) :: rest => anchored k ++ anchored v ++ anchoredEntries rest

end

end Node

/-! ## Reading one document -/

abbrev Handles := List (String × Octets)

namespace Handles

def standard : Handles :=
  [("!", octets ['!']), ("!!", octets "tag:yaml.org,2002:".toList)]

def tag? (handles : Handles) : Option String → Octets → Option Octets
  | some name, rest => do return (← List.lookup name handles) ++ rest
  | none, rest => some rest

end Handles

structure Reading where
  rest : List Token
  slots : OrderedMap String Nat

namespace Reading

def drop (r : Reading) : Reading := { r with rest := r.rest.drop 1 }

def next? (r : Reading) : Option Token := r.rest.head?

def isAt (ts : List Token) (r : Reading) : Bool :=
  r.next?.any ts.contains

/-- Gives a name the next slot. There are as many slots as there are names. -/
def anchor (name : String) (r : Reading) : Nat × Reading :=
  (r.slots.size, { r with slots := r.slots.insert name r.slots.size })

def slot? (r : Reading) : Option Nat × Reading :=
  match r.next? with
  | some (.anchor name) =>
    let (slot, r) := r.drop.anchor name
    (some slot, r)
  | _ => (none, r)

def tag? (handles : Handles) (r : Reading) : Option (Option Octets × Reading) :=
  match r.next? with
  | some (.tag handle rest) => do return (some (← handles.tag? handle rest), r.drop)
  | _ => some (none, r)

def marks? (handles : Handles) (r : Reading) : Option (Marks × Reading) := do
  let (slot, r) := r.slot?
  let (tag, r) ← r.tag? handles
  if slot.isSome then return (⟨slot, tag⟩, r)
  let (slot, r) := r.slot?
  return (⟨slot, tag⟩, r)

end Reading

inductive Position
  | flow
  | block
  /-- In a block mapping, where a sequence need not be indented further. -/
  | entry
  deriving DecidableEq

mutual

/-- Reads a node. The fuel bounds the number of nested and consecutive nodes. -/
def node? (handles : Handles) : Nat → Position → Reading → Option (Node × Reading)
  | 0, _, _ => none
  | fuel + 1, position, r =>
    match r.next? with
    | some (.alias name) => do return (.alias (← r.slots.get? name), r.drop)
    | _ => do
      let (marks, r) ← r.marks? handles
      match r.next? with
      | some (.scalar text plain) => return (.scalar marks.forScalar text plain, r.drop)
      | some .openSequence => do
        let (items, r) ← flowItems? handles fuel [] r.drop
        return (.sequence marks items, r)
      | some .openMapping => do
        let (entries, r) ← flowEntries? handles fuel [] r.drop
        return (.mapping marks entries, r)
      | _ =>
        if position = .entry ∧ r.isAt [.item] then
          let (items, r) ← looseItems? handles fuel [] r
          return (.sequence marks items, r)
        else if position ≠ .flow ∧ r.isAt [.blockSequence] then
          let (items, r) ← blockItems? handles fuel [] r.drop
          return (.sequence marks items, r)
        else if position ≠ .flow ∧ r.isAt [.blockMapping] then
          let (entries, r) ← blockEntries? handles fuel [] r.drop
          return (.mapping marks entries, r)
        else if marks.isNone then none
        else return (.empty marks, r)

def nodeBefore? (handles : Handles) : Nat → Position → List Token → Reading →
    Option (Node × Reading)
  | 0, _, _, _ => none
  | fuel + 1, position, ts, r =>
    if r.isAt ts then some (.empty .none, r) else node? handles fuel position r

def blockItems? (handles : Handles) : Nat → List Node → Reading → Option (List Node × Reading)
  | 0, _, _ => none
  | fuel + 1, items, r =>
    match r.next? with
    | some .item => do
      let (x, r) ← nodeBefore? handles fuel .block [.item, .blockEnd] r.drop
      blockItems? handles fuel (x :: items) r
    | some .blockEnd => some (items.reverse, r.drop)
    | _ => none

def looseItems? (handles : Handles) : Nat → List Node → Reading → Option (List Node × Reading)
  | 0, _, _ => none
  | fuel + 1, items, r =>
    if r.isAt [.item] then do
      let (x, r) ← nodeBefore? handles fuel .block [.item, .key, .value, .blockEnd] r.drop
      looseItems? handles fuel (x :: items) r
    else some (items.reverse, r)

def blockEntries? (handles : Handles) :
    Nat → List (Node × Node) → Reading → Option (List (Node × Node) × Reading)
  | 0, _, _ => none
  | fuel + 1, entries, r =>
    match r.next? with
    | some .key => do
      let ends : List Token := [.key, .value, .blockEnd]
      let (k, r) ← nodeBefore? handles fuel .entry ends r.drop
      let (v, r) ←
        if r.isAt [.value] then nodeBefore? handles fuel .entry ends r.drop
        else some (.empty .none, r)
      blockEntries? handles fuel ((k, v) :: entries) r
    | some .blockEnd => some (entries.reverse, r.drop)
    | _ => none

/-- Reads the items of a flow sequence. A key makes an item a mapping of one entry; of an empty
key the token behind it is dropped too. -/
def flowItems? (handles : Handles) : Nat → List Node → Reading → Option (List Node × Reading)
  | 0, _, _ => none
  | fuel + 1, items, r =>
    if r.isAt [.closeSequence] then some (items.reverse, r.drop)
    else do
      let r ← if items.isEmpty then some r else if r.isAt [.comma] then some r.drop else none
      if r.isAt [.closeSequence] then some (items.reverse, r.drop)
      else if r.isAt [.key] then do
        let r := r.drop
        let (k, r) ←
          if r.isAt [.value, .comma, .closeSequence] then some (.empty .none, r.drop)
          else node? handles fuel .flow r
        let (v, r) ←
          if r.isAt [.value] then
            nodeBefore? handles fuel .flow [.comma, .closeSequence] r.drop
          else some (.empty .none, r)
        flowItems? handles fuel (.mapping .none [(k, v)] :: items) r
      else do
        let (x, r) ← node? handles fuel .flow r
        flowItems? handles fuel (x :: items) r

def flowEntries? (handles : Handles) :
    Nat → List (Node × Node) → Reading → Option (List (Node × Node) × Reading)
  | 0, _, _ => none
  | fuel + 1, entries, r =>
    if r.isAt [.closeMapping] then some (entries.reverse, r.drop)
    else do
      let r ← if entries.isEmpty then some r else if r.isAt [.comma] then some r.drop else none
      if r.isAt [.closeMapping] then some (entries.reverse, r.drop)
      else if r.isAt [.key] then do
        let (k, r) ← nodeBefore? handles fuel .flow [.value, .comma, .closeMapping] r.drop
        let (v, r) ←
          if r.isAt [.value] then nodeBefore? handles fuel .flow [.comma, .closeMapping] r.drop
          else some (.empty .none, r)
        flowEntries? handles fuel ((k, v) :: entries) r
      else do
        let (k, r) ← node? handles fuel .flow r
        flowEntries? handles fuel ((k, .empty .none) :: entries) r

end

/-! ## Reading all documents -/

def directives? : List Token → Bool → Handles → Option (Handles × List Token)
  | .version known :: ts, seen, handles =>
    if known && !seen then directives? ts true handles else none
  | .handle name start :: ts, seen, handles =>
    if (List.lookup name handles).isSome then none
    else directives? ts seen ((name, start) :: handles)
  | ts, _, handles => some (handles, ts)

def nodeFuel (ts : List Token) : Nat := 4 * ts.length + 8

def content? (handles : Handles) (ts : List Token) : Option (Node × List Token) := do
  let (x, r) ← node? handles (nodeFuel ts) .block ⟨ts, .empty⟩
  return (x, r.rest)

def endsDocument : List Token → Bool
  | [] => true
  | t :: _ =>
    match t with
    | .version _ | .handle .. | .documentStart | .documentEnd => true
    | _ => false

/-- Reads the documents. Only the first one needs no marker before it. -/
def documentsFrom? : Nat → Bool → List Token → Option (List Node)
  | 0, _, _ => none
  | fuel + 1, first, ts => do
    let ts := if first then ts else ts.dropWhile (· == .documentEnd)
    let found : Option (Node × List Token) ←
      match ts with
      | [] => some none
      | t :: _ => do
        if first && (t == .documentEnd || !endsDocument ts) then
          some (some (← content? .standard ts))
        else
          let (handles, ts) ← directives? ts false []
          match ts with
          | .documentStart :: ts =>
            if endsDocument ts then some (some (.empty .none, ts))
            else some (some (← content? (handles ++ .standard) ts))
          | _ => none
    match found with
    | none => return []
    | some (x, ts) =>
      let ts := match ts with
        | .documentEnd :: ts => ts
        | ts => ts
      return x :: (← documentsFrom? fuel false ts)

def nodes? (ts : List Token) : Option (List Node) :=
  documentsFrom? (ts.length + 1) true ts

end BufferLedger.Yaml
