import BufferLedger.Time.Duration

/-!
# Supervision

A run of the program has three background tasks: the reconciler and two that end when their
watch does. The supervisor waits for a wish to shut down or for the end of a task. On either it
tells all tasks to stop, waits for those that are left, one after the other and for a limited
time in all, and returns. The wish makes the run a success and the early end of a task makes it
a failure. Nothing can be run twice.

The tasks are started before the supervisor asks to be told of wishes. If that is refused it
returns with the cause at once, and the tasks go on: nobody has told them to stop.

A wish is made and a task ends at any time (`Input.wish`, `Input.ended`); the supervisor acts on
it when it comes to it (`Input.seeWish`, `Input.seeEnd`). It knows the tasks by their places in
a list: it is told at which place a task has ended, takes that one out and waits for the rest.
-/

namespace BufferLedger

inductive BackgroundTask
  | reconciler
  | podWatch
  | machineWatch
  deriving DecidableEq

def BackgroundTask.all : List BackgroundTask := [.reconciler, .podWatch, .machineWatch]

theorem BackgroundTask.mem_all (t : BackgroundTask) : t ∈ all := by
  cases t <;> decide

abbrev TaskEnd := Except String Unit

inductive RunError
  | taskEnded
  | taskFailed (cause : String)
  | notListening (cause : String)
  | alreadyRun
  deriving DecidableEq

def RunError.message : RunError → String
  | .taskEnded => "background task exited before shutdown"
  | .taskFailed cause | .notListening cause => cause
  | .alreadyRun => "Application has already been run"

def RunError.ofEnd : TaskEnd → RunError
  | .ok _ => .taskEnded
  | .error cause => .taskFailed cause

abbrev Outcome := Except RunError Unit

/-- Whether the supervisor will be told of wishes to shut down, or why it will not. -/
abbrev Listening := Except String Unit

namespace Supervision

inductive Phase
  | idle
  | watching (tasks : List BackgroundTask)
  /-- Waiting for the first of the tasks to end, then for the next, as long as there is time left
  (in nanoseconds). -/
  | awaiting (tasks : List BackgroundTask) (left : Nat) (outcome : Outcome)
  | returned (outcome : Outcome)

inductive Input
  | run (listening : Listening)
  | wish
  | ended (task : BackgroundTask) (how : TaskEnd)
  | seeWish
  | seeEnd (index : Nat)
  | joined
  | passed (nanos : Nat)
  | timeUp

inductive Output
  | start (task : BackgroundTask)
  | stop
  | await (task : BackgroundTask)
  | result (outcome : Outcome)

end Supervision

structure Supervisor where
  timeout : Duration
  phase : Supervision.Phase
  wished : Bool
  finished : List (BackgroundTask × TaskEnd)

namespace Supervisor

abbrev Step := Supervisor × List Supervision.Output

def idle (timeout : Duration) : Supervisor := ⟨timeout, .idle, false, []⟩

def endOf? (s : Supervisor) (t : BackgroundTask) : Option TaskEnd :=
  s.finished.lookup t

def await (tasks : List BackgroundTask) (left : Nat) (outcome : Outcome) (s : Supervisor) :
    Step :=
  match tasks with
  | [] => ({ s with phase := .returned outcome }, [.result outcome])
  | t :: _ => ({ s with phase := .awaiting tasks left outcome }, [.await t])

def windDown (tasks : List BackgroundTask) (outcome : Outcome) (s : Supervisor) : Step :=
  let (s, outputs) := s.await tasks s.timeout.toNanos outcome
  (s, .stop :: outputs)

def startAll (listening : Listening) (s : Supervisor) : Step :=
  let starts := BackgroundTask.all.map .start
  match listening with
  | .ok _ => ({ s with phase := .watching BackgroundTask.all }, starts)
  | .error cause =>
    let outcome := .error (.notListening cause)
    ({ s with phase := .returned outcome }, starts ++ [.result outcome])

def step (s : Supervisor) : Supervision.Input → Option Step
  | .run listening =>
    match s.phase with
    | .idle => some (s.startAll listening)
    | .returned _ => some (s, [.result (.error .alreadyRun)])
    | _ => none
  | .wish =>
    match s.phase with
    | .watching _ => some ({ s with wished := true }, [])
    | _ => some (s, [])
  | .ended t how =>
    match s.phase with
    | .idle => none
    | _ =>
      if (s.endOf? t).isSome then none
      else some ({ s with finished := (t, how) :: s.finished }, [])
  | .seeWish =>
    match s.phase, s.wished with
    | .watching tasks, true => some (s.windDown tasks (.ok ()))
    | _, _ => none
  | .seeEnd index =>
    match s.phase with
    | .watching tasks =>
      (tasks[index]?.bind s.endOf?).map fun how =>
        s.windDown (tasks.eraseIdx index) (.error (.ofEnd how))
    | _ => none
  | .joined =>
    match s.phase with
    | .awaiting (t :: rest) left outcome =>
      if (s.endOf? t).isSome then some (s.await rest left outcome) else none
    | _ => none
  | .passed nanos =>
    match s.phase with
    | .awaiting tasks left outcome =>
      if nanos ≤ left then some ({ s with phase := .awaiting tasks (left - nanos) outcome }, [])
      else none
    | _ => none
  | .timeUp =>
    match s.phase with
    | .awaiting _ 0 outcome => some ({ s with phase := .returned outcome }, [.result outcome])
    | _ => none

def outcome? (s : Supervisor) : Option Outcome :=
  match s.phase with
  | .returned outcome => some outcome
  | _ => none

end Supervisor

end BufferLedger
