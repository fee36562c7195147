import BufferLedger.Cluster.Metadata

/-!
# Virtual machines

The object that describes a virtual machine, as far as scaling reads it. Every part but the
metadata may be missing. Amounts of CPU are kept as they are written, so that an amount that
makes no sense does not keep the object from being read.
-/

namespace BufferLedger

open Json

inductive CpuAmount
  | text (quantity : String)
  | cores (number : Binary64)
  deriving DecidableEq

structure AmountRange (α : Type) where
  min : Option α
  max : Option α
  use : Option α
  deriving DecidableEq

structure Guest where
  cpus : Option (AmountRange CpuAmount)
  memorySlots : Option (AmountRange Nat)
  memorySlotSize : Option String
  deriving DecidableEq

structure MachineSpec where
  guest : Option Guest
  deriving DecidableEq

structure MachineStatus where
  podName : Option String
  deriving DecidableEq

structure VirtualMachine where
  metadata : Metadata
  spec : Option MachineSpec
  status : Option MachineStatus

def AmountRange.empty {α : Type} : AmountRange α := ⟨none, none, none⟩

def Guest.empty : Guest := ⟨none, none, none⟩

/-! ## Reading -/

def CpuAmount.decode : Json → Decoded Empty CpuAmount
  | .string s => .ok (.text s)
  | .whole n => .ok (.cores (.ofInt n))
  | .float x => .ok (.cores x)
  | j => do
    liftFault (complete j)
    .error .mismatch

def AmountRange.decode {α : Type} (amount : Json → Decoded Empty α) :
    Json → Decoded Empty (AmountRange α) :=
  asRecord
    [.optional "min" amount fun x r => { r with min := x },
     .optional "max" amount fun x r => { r with max := x },
     .optional "use" amount fun x r => { r with use := x }] .empty

def Guest.decode : Json → Decoded Empty Guest :=
  asRecord
    [.optional "cpus" (AmountRange.decode CpuAmount.decode) fun x g => { g with cpus := x },
     .optional "memorySlots" (AmountRange.decode asWord32) fun x g => { g with memorySlots := x },
     .optional "memorySlotSize" asString fun x g => { g with memorySlotSize := x }] .empty

def MachineSpec.decode : Json → Decoded Empty MachineSpec :=
  asRecord [.optional "guest" Guest.decode fun x _ => ⟨x⟩] ⟨none⟩

def MachineStatus.decode : Json → Decoded Empty MachineStatus :=
  asRecord [.optional "podName" asString fun x _ => ⟨x⟩] ⟨none⟩

namespace VirtualMachine

def decode : Json → Decoded Empty VirtualMachine :=
  asRecord
    [.mandatory "metadata" Metadata.decode fun x v => { v with metadata := x },
     .optional "spec" MachineSpec.decode fun x v => { v with spec := x },
     .optional "status" MachineStatus.decode fun x v => { v with status := x }]
    ⟨.empty, none, none⟩

instance : ClusterObject VirtualMachine where
  metadata := VirtualMachine.metadata
  decode := decode

end VirtualMachine

/-! ## Writing

A missing spec or status is left out, a missing part of them is written as null, and so is an
amount of CPU that is not finite, as no document has a number for it. -/

def CpuAmount.encode : CpuAmount → Json
  | .text s => .string s
  | .cores x => if x.isFinite then .float x else .null

def encodeOption {α : Type} (encode : α → Json) : Option α → Json
  | none => .null
  | some x => encode x

def AmountRange.encode {α : Type} (amount : α → Json) (r : AmountRange α) : Json :=
  .objectOf
    [("min", encodeOption amount r.min), ("max", encodeOption amount r.max),
     ("use", encodeOption amount r.use)]

def Guest.encode (g : Guest) : Json :=
  .objectOf
    [("cpus", encodeOption (AmountRange.encode CpuAmount.encode) g.cpus),
     ("memorySlots", encodeOption (AmountRange.encode fun n : Nat => .whole n) g.memorySlots),
     ("memorySlotSize", encodeOption .string g.memorySlotSize)]

def MachineSpec.encode (s : MachineSpec) : Json :=
  .objectOf [("guest", encodeOption Guest.encode s.guest)]

def MachineStatus.encode (s : MachineStatus) : Json :=
  .objectOf [("podName", encodeOption .string s.podName)]

namespace VirtualMachine

def encode (v : VirtualMachine) : Json :=
  .objectOf <|
    [("metadata", v.metadata.encode)] ++
    v.spec.toList.map (fun s => ("spec", s.encode)) ++
    v.status.toList.map (fun s => ("status", s.encode))

/-! ## What scaling asks of a machine -/

def scalingLabel : String := "autoscaling.neon.tech/enabled"

def boundsNote : String := "autoscaling.neon.tech/bounds"

def podName? (v : VirtualMachine) : Option String :=
  (v.status.bind (·.podName)).filter (· ≠ "")

def scalable (v : VirtualMachine) : Bool :=
  v.metadata.label? scalingLabel == some "true"

end VirtualMachine

end BufferLedger
