import BufferLedger.Yaml.Node
import BufferLedger.Yaml.Scalar
import BufferLedger.Yaml.Token.Lexer

/-!
# YAML documents

The values of the documents of a text. An alias denotes what the node at its slot denotes, so a
value can be much larger than its text: how deep it goes and how often aliases are followed is
limited.
-/

namespace BufferLedger.Yaml

def maxDepth : Nat := 128

def maxRepetition : Nat := 100

abbrev Expansion := StateT Nat Option

namespace Node

def follow : Expansion Unit := do
  match ← get with
  | 0 => failure
  | left + 1 => set left

/-- The value of a node. Between two collections there is at most one alias, which bounds the
fuel. -/
def expand (slots : List (Nat × Node)) : Nat → Nat → Node → Expansion Value
  | 0, _, _ => failure
  | fuel + 1, depth, .alias slot => do
    follow
    match List.lookup slot slots with
    | some x => expand slots fuel depth x
    | none => failure
  | _ + 1, _, .scalar marks text plain => StateT.lift (scalarValue? marks.tag text plain)
  | _ + 1, 0, _ => failure
  | fuel + 1, depth + 1, .sequence marks items => do
    let xs ← items.mapM (expand slots fuel depth)
    StateT.lift (applyTag? marks.tag (.sequence xs))
  | fuel + 1, depth + 1, .mapping marks entries => do
    let xs ← entries.foldlM (fun xs (k, v) => do
      let k ← expand slots fuel depth k
      if xs.any (Value.same k ·.1) then failure
      return (k, ← expand slots fuel depth v) :: xs) []
    StateT.lift (applyTag? marks.tag (.mapping xs.reverse))

def value? (x : Node) : Option Value := do
  let (value, _) ← (expand x.anchored.reverse (2 * maxDepth + 2) maxDepth x).run
    (maxRepetition * x.weight)
  return value

end Node

def documents? (cs : List Char) : Option (List Value) := do
  let nodes ← nodes? (← tokens? (dropMark cs))
  nodes.mapM Node.value?

end BufferLedger.Yaml
