import BufferLedger.Scaling.Profile

/-!
# Work items

What the watches ask of the ledger. Every item is about one pod; the items about a machine also
say how it scales, or which machine it is.
-/

namespace BufferLedger

inductive WorkItem
  | machinePodGone (pod : Key)
  | podGone (pod : Key)
  | scalingDisabled (pod : Key)
  | boundsChanged (profile : Profile) (pod : Key)
  | observed (profile : Profile) (pod : Key)
  | podStarted (pod machine : Key)
  deriving DecidableEq

namespace WorkItem

def pod : WorkItem → Key
  | .machinePodGone pod | .podGone pod | .scalingDisabled pod | .boundsChanged _ pod
  | .observed _ pod | .podStarted pod _ => pod

def boundsChangedOn (p : Profile) (podName : String) : WorkItem :=
  .boundsChanged p ⟨p.space, podName⟩

def observedOn (p : Profile) (podName : String) : WorkItem :=
  .observed p ⟨p.space, podName⟩

def podStartedFor (pod : Key) (machineName : String) : WorkItem :=
  .podStarted pod ⟨pod.space, machineName⟩

end WorkItem

end BufferLedger
