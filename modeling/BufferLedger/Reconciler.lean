import BufferLedger.Cluster.Pod
import BufferLedger.Ledger
import BufferLedger.Scaling.Extract
import BufferLedger.Work.Item

/-!
# The reconciler

The only writer of the ledger. For each work item it first decides, looking at the cluster as
it stands, and then writes (`Reconciler.decide`, `Ledger.perform`). An entry is only made for a
pod that is there and has not completed, and changed bounds only replace an entry.
-/

namespace BufferLedger

structure ClusterView where
  pods : OrderedMap Key Pod
  machines : OrderedMap Key VirtualMachine

namespace ClusterView

def empty : ClusterView := ⟨.empty, .empty⟩

def podIsLive (c : ClusterView) (pod : Key) : Bool :=
  match c.pods.get? pod with
  | some p => !p.completed
  | none => false

end ClusterView

inductive Decision
  | keep
  | put (pod : Key) (entry : Entry)
  | replace (pod : Key) (entry : Entry)
  | drop (pod : Key)
  deriving DecidableEq

namespace Reconciler

def reserve (c : ClusterView) (p : Profile) (pod : Key) : Decision :=
  if p.scalable && c.podIsLive pod then .put pod (.ofProfile p) else .keep

def decide (c : ClusterView) : WorkItem → Decision
  | .observed p pod => reserve c p pod
  | .podStarted pod machine =>
    match c.machines.get? machine with
    | none => .keep
    | some v =>
      if v.podName? = some pod.name then
        match v.profile with
        | .ok p => reserve c p pod
        | .error _ => .keep
      else .keep
  | .boundsChanged p pod => if p.scalable then .replace pod (.ofProfile p) else .keep
  | .scalingDisabled pod | .machinePodGone pod | .podGone pod => .drop pod

end Reconciler

namespace Ledger

def perform (l : Ledger) : Decision → Ledger
  | .keep => l
  | .put pod e => (l.upsert pod e).1
  | .replace pod e => (l.updateExisting pod e).1
  | .drop pod => (l.remove pod).1

def apply (c : ClusterView) (l : Ledger) (item : WorkItem) : Ledger :=
  l.perform (Reconciler.decide c item)

end Ledger

end BufferLedger
