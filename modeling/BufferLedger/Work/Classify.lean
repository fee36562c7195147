import BufferLedger.Cluster.Pod
import BufferLedger.Scaling.Extract
import BufferLedger.Watch.Call
import BufferLedger.Work.Item
import BufferLedger.Work.Transition

/-!
# Work from calls

Classifies the calls of the two watches into work items. A machine's deletion asks for nothing:
its pod's end releases what is held for it. A machine whose object gives no profile asks for
nothing either.
-/

namespace BufferLedger

namespace Pod

def release (p : Pod) : WorkItem :=
  if p.runsMachine then .machinePodGone p.metadata.key else .podGone p.metadata.key

def work : Call Pod → List WorkItem
  | .add p =>
    if p.completed then []
    else match p.machineName? with
      | some machine => [.podStartedFor p.metadata.key machine]
      | none => []
  | .update old new =>
    match Completion.onUpdate old.completed new.completed with
    | .released => [new.release]
    | .unchanged => []
  | .delete p _ =>
    match Completion.onDelete p.completed with
    | .released => [p.release]
    | .unchanged => []

end Pod

namespace VirtualMachine

def workOfAdd (v : VirtualMachine) : List WorkItem :=
  if !v.scalable then []
  else match v.podName?, v.profile with
    | some pod, .ok p => [.observedOn p pod]
    | _, _ => []

def workOfBounds (old : Profile) (oldPod : Option String) (new : Profile) (pod : String) :
    List WorkItem :=
  match BoundsChange.between old oldPod new (some pod) with
  | .unchanged => []
  -- The old pod is released by its own end.
  | .podChanged => if new.scalable then [.observedOn new pod] else []
  | .changed => [.boundsChangedOn new pod]

def workOfUpdate (old new : VirtualMachine) : List WorkItem :=
  match old.profile, new.profile, new.podName? with
  | .ok before, .ok now, some pod =>
    match ScalingChange.between before.scalable now.scalable with
    | .enabled => [.observedOn now pod]
    | .disabled =>
      .scalingDisabled ⟨now.space, pod⟩ :: workOfBounds before old.podName? now pod
    | .unchanged => workOfBounds before old.podName? now pod
  | _, _, _ => []

def work : Call VirtualMachine → List WorkItem
  | .add v => workOfAdd v
  | .update old new => workOfUpdate old new
  | .delete .. => []

end VirtualMachine

end BufferLedger
