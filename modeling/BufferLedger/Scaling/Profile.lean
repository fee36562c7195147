import BufferLedger.Key
import BufferLedger.Scaling.Override

/-!
# Scaling profiles

What the ledger needs to know of a virtual machine: its name, its bounds, the size of a memory
slot and whether it may be scaled at all.
-/

namespace BufferLedger

open Text

/-- CPU is in thousandths of a core, memory in slots of a size in bytes. -/
structure Profile where
  name : String
  space : String
  cpu : Bounds
  mem : Bounds
  slotSize : Nat
  scalable : Bool
  deriving DecidableEq

def capped (bytes : Nat) : Nat :=
  min bytes word64Max

namespace Profile

def key (p : Profile) : Key :=
  ⟨p.space, p.name⟩

/-- Whether two profiles allow the same range; present use and slot size do not matter. -/
def sameRange (p q : Profile) : Bool :=
  p.cpu.sameRange q.cpu && p.mem.sameRange q.mem

def memoryUse (p : Profile) : Nat :=
  capped (p.mem.use * p.slotSize)

def memoryBuffer (p : Profile) : Nat :=
  capped (p.mem.buffer * p.slotSize)

/-- Makes the ranges narrower, CPU first. If only memory refuses, CPU stays narrowed. -/
def apply (o : Override) (p : Profile) : Profile × Except ProfileError Unit :=
  match p.cpu.narrow .cpu o.min.cpu o.max.cpu with
  | .error e => (p, .error e)
  | .ok cpu =>
    match p.mem.narrow .memory o.min.mem o.max.mem with
    | .error e => ({ p with cpu }, .error e)
    | .ok mem => ({ p with cpu, mem }, .ok ())

end Profile

end BufferLedger
