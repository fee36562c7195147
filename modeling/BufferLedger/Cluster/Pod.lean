import BufferLedger.Cluster.Metadata
import BufferLedger.Cluster.PodParts

/-!
# Pods

A pod is known by its metadata and its phase. A label names the virtual machine that it runs.
-/

namespace BufferLedger

open Json

structure Pod where
  metadata : Metadata
  phase : Option String

namespace Pod

def machineLabel : String := "vm.neon.tech/name"

def completed (p : Pod) : Bool :=
  p.phase == some "Succeeded" || p.phase == some "Failed"

def machineName? (p : Pod) : Option String :=
  p.metadata.label? machineLabel

def runsMachine (p : Pod) : Bool :=
  p.machineName?.isSome

def statusFields : List (Field Empty (Option String)) :=
  .optional "phase" asString (fun x _ => x) :: PodParts.statusFields

def constant (name value : String) : Field Empty Pod :=
  ⟨name, false, fun j p => do
    if (← asString j) == value then return p else .error .mismatch⟩

def fields : List (Field Empty Pod) :=
  [constant "apiVersion" "v1",
   constant "kind" "Pod",
   .optional "metadata" Metadata.decode fun x p => { p with metadata := x.getD .empty },
   .optional "spec" PodParts.asSpec fun _ p => p,
   .optional "status" (asObject false statusFields none) fun x p => { p with phase := x.join }]

def decode : Json → Decoded Empty Pod :=
  asObject false fields ⟨.empty, none⟩

instance : ClusterObject Pod where
  metadata := Pod.metadata
  decode := decode

end Pod

end BufferLedger
