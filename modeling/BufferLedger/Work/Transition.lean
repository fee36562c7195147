import BufferLedger.Scaling.Profile

/-!
# Transitions

What a change of a pod or of a machine means for the ledger. Only an edge counts: an update
that changes nothing means nothing.
-/

namespace BufferLedger

inductive Completion
  | unchanged
  | released
  deriving DecidableEq

namespace Completion

def onUpdate (wasCompleted isCompleted : Bool) : Completion :=
  if !wasCompleted && isCompleted then .released else .unchanged

/-- A completed pod was released when it completed. -/
def onDelete (wasCompleted : Bool) : Completion :=
  if wasCompleted then .unchanged else .released

end Completion

inductive ScalingChange
  | unchanged
  | enabled
  | disabled
  deriving DecidableEq

def ScalingChange.between (was now : Bool) : ScalingChange :=
  match was, now with
  | false, true => .enabled
  | true, false => .disabled
  | _, _ => .unchanged

inductive BoundsChange
  | unchanged
  /-- The machine moved to another pod; its bounds are not compared. -/
  | podChanged
  | changed
  deriving DecidableEq

def BoundsChange.between (old : Profile) (oldPod : Option String) (new : Profile)
    (newPod : Option String) : BoundsChange :=
  if oldPod ≠ newPod then .podChanged
  else if old.sameRange new then .unchanged
  else .changed

end BufferLedger
