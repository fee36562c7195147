import BufferLedger.Scaling.Bounds

/-!
# Bounds overrides

The annotation that makes the scaling range of a virtual machine narrower than its object says:
a JSON record of a least and a greatest amount, each a record of CPU and memory slots.
-/

namespace BufferLedger

open Json Quantity

structure Amounts where
  cpu : Nat
  mem : Nat
  deriving DecidableEq

structure Override where
  min : Amounts
  max : Amounts
  deriving DecidableEq

/-- An amount of CPU: a text in one of its notations, or a number of cores. -/
def decodeCpu : Json → Decoded CpuRefusal Nat
  | .string s =>
    match milliCpu? s with
    | some n => .ok n
    | none => .error (.refused (.quantity s))
  | .whole n => cores (.ofInt n)
  | .float x => cores x
  | j => do
    liftFault (complete j)
    .error .mismatch
where
  cores (x : Binary64) : Decoded CpuRefusal Nat :=
    match milliOfCores? x with
    | some n => .ok n
    | none => .error (.refused (.amount x))

namespace Amounts

def fields : List (Field CpuRefusal Amounts) :=
  [.mandatory "cpu" decodeCpu fun n a => { a with cpu := n },
   .mandatory "mem" asWord32 fun n a => { a with mem := n }]

def decode : Json → Decoded CpuRefusal Amounts :=
  asRecord fields ⟨0, 0⟩

end Amounts

namespace Override

def fields : List (Field CpuRefusal Override) :=
  [.mandatory "min" Amounts.decode fun a o => { o with min := a },
   .mandatory "max" Amounts.decode fun a o => { o with max := a }]

def decode : Json → Decoded CpuRefusal Override :=
  asRecord fields ⟨⟨0, 0⟩, ⟨0, 0⟩⟩

def ofText (text : String) : Except ProfileError Override :=
  (decodeText decode text).mapError .badOverride

end Override

end BufferLedger
