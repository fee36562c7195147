import BufferLedger.Cluster.VirtualMachine
import BufferLedger.Quantity.Memory
import BufferLedger.Scaling.Profile

/-!
# Profiles of virtual machines

Reads the scaling profile out of a virtual machine's object. The bounds come from the spec; the
annotation, if there is one, makes them narrower.
-/

namespace BufferLedger

open Quantity

namespace CpuAmount

def milli? : CpuAmount → Option Nat
  | .text quantity => milliCpu? quantity
  | .cores number => milliOfCores? number

def display : CpuAmount → String
  | .text quantity => quantity
  | .cores number => number.text

def milli (field : String) : Option CpuAmount → Except ProfileError (Option Nat)
  | none => .ok none
  | some amount =>
    match amount.milli? with
    | some n => .ok (some n)
    | none => .error (.invalidQuantity field amount.display)

end CpuAmount

namespace VirtualMachine

def guest (v : VirtualMachine) : Guest :=
  (v.spec.bind (·.guest)).getD .empty

def cpuBounds (g : Guest) : Except ProfileError Bounds := do
  let cpus := g.cpus.getD .empty
  let min ← CpuAmount.milli "spec.guest.cpus.min" cpus.min
  let max ← CpuAmount.milli "spec.guest.cpus.max" cpus.max
  let use ← CpuAmount.milli "spec.guest.cpus.use" cpus.use
  Bounds.of .cpu min max use

def memoryBounds (g : Guest) : Except ProfileError Bounds :=
  let slots := g.memorySlots.getD .empty
  Bounds.of .memory slots.min slots.max slots.use

def slotSize (g : Guest) : Except ProfileError Nat :=
  match g.memorySlotSize with
  | none => .error (.missingValue .memory "slot size")
  | some size =>
    match bytes? size with
    | some n => .ok n
    | none => .error (.invalidQuantity "spec.guest.memorySlotSize" size)

def specProfile (v : VirtualMachine) : Except ProfileError Profile := do
  let cpu ← cpuBounds v.guest
  let mem ← memoryBounds v.guest
  let slotSize ← slotSize v.guest
  return ⟨v.metadata.key.name, v.metadata.key.space, cpu, mem, slotSize, v.scalable⟩

def profile (v : VirtualMachine) : Except ProfileError Profile := do
  let p ← v.specProfile
  match v.metadata.note? boundsNote with
  | none => return p
  | some text =>
    let o ← Override.ofText text
    let (p, result) := p.apply o
    result.map fun _ => p

end VirtualMachine

end BufferLedger
