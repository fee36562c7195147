import BufferLedger.Reconciler
import BufferLedger.Work.Classify

/-!
# The pipeline

From the watches to the ledger: a change of a collection is first seen in the view of the
cluster, then classified, and its work queued; the reconciler works through the queue. A step of
the reconciler has two halves, the decision and the write, and anything may happen in between.
-/

namespace BufferLedger

structure Pipeline where
  view : ClusterView
  queue : List WorkItem
  /-- The item that the reconciler has taken, and what it has decided and not written yet. -/
  decided : Option (WorkItem × Decision)
  ledger : Ledger

namespace Pipeline

def empty : Pipeline := ⟨.empty, [], none, .empty⟩

def submit (items : List WorkItem) (s : Pipeline) : Pipeline :=
  { s with queue := s.queue ++ items }

def setPod (p : Pod) (s : Pipeline) : Pipeline :=
  { s with view.pods := s.view.pods.insert p.metadata.key p }

def unsetPod (pod : Key) (s : Pipeline) : Pipeline :=
  { s with view.pods := s.view.pods.erase pod }

def setMachine (v : VirtualMachine) (s : Pipeline) : Pipeline :=
  { s with view.machines := s.view.machines.insert v.metadata.key v }

def unsetMachine (machine : Key) (s : Pipeline) : Pipeline :=
  { s with view.machines := s.view.machines.erase machine }

def seePod : Call Pod → Pipeline → Pipeline
  | .add p, s => s.setPod p
  | .update _ new, s => s.setPod new
  | .delete p _, s => s.unsetPod p.metadata.key

def seeMachine : Call VirtualMachine → Pipeline → Pipeline
  | .add v, s => s.setMachine v
  | .update _ new, s => s.setMachine new
  | .delete v _, s => s.unsetMachine v.metadata.key

def podCall (c : Call Pod) (s : Pipeline) : Pipeline :=
  (s.seePod c).submit (Pod.work c)

def machineCall (c : Call VirtualMachine) (s : Pipeline) : Pipeline :=
  (s.seeMachine c).submit (VirtualMachine.work c)

def applyNow (item : WorkItem) (s : Pipeline) : Pipeline :=
  { s with ledger := s.ledger.apply s.view item }

def decideNext (s : Pipeline) : Pipeline :=
  match s.decided, s.queue with
  | none, item :: rest =>
    { s with queue := rest, decided := some (item, Reconciler.decide s.view item) }
  | _, _ => s

def write (s : Pipeline) : Pipeline :=
  match s.decided with
  | none => s
  | some (_, d) => { s with decided := none, ledger := s.ledger.perform d }

def drain (s : Pipeline) : Pipeline :=
  { s with queue := [], ledger := s.queue.foldl (Ledger.apply s.view) s.ledger }

end Pipeline

end BufferLedger
