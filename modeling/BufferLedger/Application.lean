import BufferLedger.Pipeline
import BufferLedger.Settings
import BufferLedger.Supervisor
import BufferLedger.Watch.Rehearsal

/-!
# The application

Both watches, the queue, the reconciler and the supervisor together, rehearsed in virtual time.
The pods are listed first and the machines once that is done, so that no completion is missed
for a pod whose machine is listed. Then the application runs: whenever nothing else can happen at
the present moment the reconciler works through the queue and the supervisor looks at its tasks.
-/

namespace BufferLedger

inductive StartFailure
  | pods (error : WatchError)
  | machines (error : WatchError)
  | unanswered
  deriving DecidableEq

def StartFailure.message : StartFailure → String
  | .pods e => "Failed to start pod watch: " ++ e.message
  | .machines e => "Failed to start VM watch: " ++ e.message
  | .unanswered => "Failed to start: no answer"

structure Ending where
  run : Outcome
  shutdown : Outcome
  again : Outcome

structure Application where
  pods : Rehearsal Pod
  machines : Rehearsal VirtualMachine
  queue : List WorkItem
  ledger : Ledger
  supervisor : Supervisor
  cancelled : Bool
  now : Nat

/-! ## Starting -/

section Starting

variable {α : Type} [ClusterObject α]

def Rehearsal.runUntilStarted : Nat → Rehearsal α → Rehearsal α
  | 0, s => s
  | fuel + 1, s =>
    if s.started?.isSome then s
    else match s.next? with
      | some (_, i, s') => runUntilStarted fuel (s'.feed i)
      | none => s

def Rehearsal.started (config : WatchConfig) (script : Script α) (now : Nat) : Rehearsal α :=
  let s := start config .waiting script now
  s.runUntilStarted s.remaining

def Rehearsal.startFailure? (cause : WatchError → StartFailure) (s : Rehearsal α) :
    Option StartFailure :=
  match s.started? with
  | some (.ok _) => none
  | some (.error e) => some (cause e)
  | none => some .unanswered

def Rehearsal.timedWork (work : Call α → List WorkItem) (s : Rehearsal α) :
    List (Nat × WorkItem) :=
  s.record.reverse.flatMap fun (time, o) =>
    match o with
    | .call c => (work c).map fun item => (time, item)
    | _ => []

end Starting

namespace Application

def ofWatches (settings : Settings) (listening : Listening) (pods : Rehearsal Pod)
    (machines : Rehearsal VirtualMachine) : Application :=
  let pods := pods.advance (machines.now - pods.now)
  let work := pods.timedWork Pod.work ++ machines.timedWork VirtualMachine.work
  let queue := (work.mergeSort fun a b => a.1 ≤ b.1).map (·.2)
  let supervisor := Supervisor.idle settings.shutdownTimeout
  let supervisor := (supervisor.step (.run listening)).elim supervisor (·.1)
  ⟨pods, machines, queue, .empty, supervisor, false, machines.now⟩

end Application

/-- The watches as far as they were started: that of the machines only if that of the pods
was. -/
structure Launch where
  pods : Rehearsal Pod
  machines : Option (Rehearsal VirtualMachine)

namespace Launch

def start (settings : Settings) (pods : Script Pod) (machines : Script VirtualMachine) :
    Launch :=
  let pods := Rehearsal.started settings.podConfig pods 0
  match pods.startFailure? .pods with
  | some _ => ⟨pods, none⟩
  | none => ⟨pods, some (.started settings.machineConfig machines pods.now)⟩

def application (settings : Settings) (l : Launch) : Except StartFailure Application :=
  match l.pods.startFailure? .pods, l.machines with
  | some e, _ => .error e
  | none, none => .error .unanswered
  | none, some machines =>
    match machines.startFailure? .machines with
    | some e => .error e
    | none => .ok (.ofWatches settings (.ok ()) l.pods machines)

end Launch

namespace Application

/-! ## Running -/

def callsSince {α : Type} (before after : Rehearsal α) : List (Call α) :=
  Rehearsal.calls (after.record.take (after.record.length - before.record.length)).reverse

def feedPods (i : Input Pod) (s : Application) (pods : Rehearsal Pod) : Application :=
  let after := pods.feed i
  { s with pods := after, queue := s.queue ++ (callsSince pods after).flatMap Pod.work }

def feedMachines (i : Input VirtualMachine) (s : Application)
    (machines : Rehearsal VirtualMachine) : Application :=
  let after := machines.feed i
  { s with
    machines := after
    queue := s.queue ++ (callsSince machines after).flatMap VirtualMachine.work }

def setClock (time : Nat) (s : Application) : Application :=
  { s with now := time, pods.now := time, machines.now := time }

def next? (s : Application) : Option (Nat × Application) :=
  match s.pods.next?, s.machines.next? with
  | some (t, i, pods), some (t', j, machines) =>
    if t ≤ t' then some (t, s.feedPods i pods) else some (t', s.feedMachines j machines)
  | some (t, i, pods), none => some (t, s.feedPods i pods)
  | none, some (t, j, machines) => some (t, s.feedMachines j machines)
  | none, none => none

def quiet (s : Application) : Bool :=
  match s.next? with
  | some (t, _) => s.now < t
  | none => true

def cancel (s : Application) : Application :=
  { s with cancelled := true, pods := s.pods.feed .cancel, machines := s.machines.feed .cancel }

def view (s : Application) : ClusterView :=
  ⟨s.pods.engine.collection.objects, s.machines.engine.collection.objects⟩

def reconcile (s : Application) : Application :=
  if s.cancelled then s
  else { s with queue := [], ledger := s.queue.foldl (Ledger.apply s.view) s.ledger }

def taskOver (s : Application) : BackgroundTask → Bool
  | .reconciler => s.cancelled
  | .podWatch => s.pods.engine.stopped
  | .machineWatch => s.machines.engine.stopped

def tell (s : Application) (i : Supervision.Input) : Application :=
  match s.supervisor.step i with
  | some (supervisor, outputs) =>
    let s := { s with supervisor }
    if outputs.any fun o => match o with
      | .stop => true
      | _ => false
    then s.cancel else s
  | none => s

def supervise (s : Application) : Application :=
  let finished := BackgroundTask.all.filter s.taskOver
  let ends : List Supervision.Input := finished.map (.ended · (.ok ()))
  let looks : List Supervision.Input := (List.range BackgroundTask.all.length).map .seeEnd
  let joins : List Supervision.Input := finished.map fun _ => .joined
  (ends ++ looks ++ Supervision.Input.seeWish :: joins).foldl tell s

def settle (s : Application) : Application :=
  if s.quiet then s.reconcile.supervise else s

def runUntil (deadline : Nat) : Nat → Application → Application
  | 0, s => s
  | fuel + 1, s =>
    match s.next? with
    | some (time, s') =>
      if time ≤ deadline then runUntil deadline fuel (s'.setClock time).settle else s
    | none => s

def advance (nanos : Nat) (s : Application) : Application :=
  let deadline := s.now + nanos
  let s := s.settle
  (s.runUntil deadline (s.pods.remaining + s.machines.remaining)).setClock deadline

def wish (s : Application) : Application :=
  s.tell .wish

def ending? (s : Application) : Option Ending := do
  let run ← s.supervisor.outcome?
  match s.supervisor.step (.run (.ok ())) with
  | some (_, [.result again]) => some ⟨run, .ok (), again⟩
  | _ => none

end Application

end BufferLedger
