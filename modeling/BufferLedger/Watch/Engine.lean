import BufferLedger.Watch.Collection
import BufferLedger.Watch.Config
import BufferLedger.Watch.Error

/-!
# The watch engine

A watch lists its collection and then follows the collection's stream of events from the listed
version on. It is a machine: `Engine.step` takes what happens next, which may be an answer of the
server, the end of a delay or a wish of its owner, and gives what the watch does about it. A step
that cannot happen in a state gives nothing.

Failed lists and watches are tried again after a delay for ever, except the first list of a
watch whose start waits for it. A version that is no longer known leads to a new list.
Cancellation and requests for a new list are wishes: they are made at any time (`cancel`,
`request`) and noticed when the watch comes to it (`noticeCancel`, `noticeRequest`). While a
stream is read both come before its events; elsewhere an answer that is there may still be taken
after a cancellation.
-/

namespace BufferLedger

inductive Purpose
  | start (attempt : Nat)
  | sync
  | relist (request : Option Nat)
  deriving DecidableEq

inductive Phase
  | listing (purpose : Purpose)
  | beforeList (purpose : Purpose)
  | opening
  | reading
  | beforeWatch
  | finished
  deriving DecidableEq

def Purpose.again : Purpose → Purpose
  | .start attempt => .start (attempt + 1)
  | p => p

def Purpose.isFirst : Purpose → Bool
  | .start _ | .sync => true
  | .relist _ => false

def Purpose.request? : Purpose → Option Nat
  | .relist r => r
  | _ => none

def Phase.request? : Phase → Option Nat
  | .listing p | .beforeList p => p.request?
  | _ => none

inductive Input (α : Type)
  | listed (answer : Except WatchError (Listing α))
  | opened (answer : Except WatchError Unit)
  | received (item : Except WatchError (WatchEvent α))
  | closed
  | elapsed
  | cancel
  | noticeCancel
  | request (id : Nat)
  | noticeRequest

inductive DelayKind
  | list
  | watch
  deriving DecidableEq

inductive Output (α : Type)
  | list
  | watch (version : String)
  | delay (kind : DelayKind)
  | call (c : Call α)
  | started (result : Except WatchError Unit)
  | answered (request : Nat) (served : Bool)

structure Engine (α : Type) where
  config : WatchConfig
  phase : Phase
  collection : Collection α
  synced : Bool
  failing : Bool
  stopped : Bool
  cancelled : Bool
  /-- Requests for a new list that have not been noticed, oldest first. -/
  requests : List Nat

namespace Engine

variable {α : Type} [ClusterObject α]

abbrev Step (α : Type) := Engine α × List (Output α)

def start (config : WatchConfig) (mode : StartMode) : Step α :=
  let idle (p : Purpose) : Engine α :=
    ⟨config, .listing p, .empty, false, false, false, false, []⟩
  match mode with
  | .waiting => (idle (.start 1), [.list])
  | .atOnce => (idle .sync, [.started (.ok ()), .list])

def markStopped (w : Engine α) : Engine α := { w with stopped := true }

def finish (w : Engine α) : Step α :=
  ({ w with phase := .finished, requests := [] },
   (w.phase.request?.toList ++ w.requests).map fun r => .answered r false)

def failStart (e : WatchError) (w : Engine α) : Step α :=
  let (w, outputs) := w.finish
  (w.markStopped, outputs ++ [.started (.error e)])

def openWatch (w : Engine α) : Step α :=
  ({ w with phase := .opening }, [.watch w.collection.version])

def askList (p : Purpose) (w : Engine α) : Step α :=
  ({ w with phase := .listing p }, [.list])

def waitForList (p : Purpose) (w : Engine α) : Step α :=
  ({ w with phase := .beforeList p }, [.delay .list])

def waitForWatch (w : Engine α) : Step α :=
  ({ w with phase := .beforeWatch }, [.delay .watch])

def listOutputs : Purpose → List (Output α)
  | .start _ => [.started (.ok ())]
  | .sync => []
  | .relist r => r.toList.map fun r => .answered r true

def listSucceeded (p : Purpose) (l : Listing α) (w : Engine α) : Step α :=
  let (collection, calls) := w.collection.replace l
  let synced := w.synced || p.isFirst
  let (w, outputs) := openWatch { w with collection, synced, failing := false }
  (w, calls.map .call ++ listOutputs p ++ outputs)

def givesUp (w : Engine α) (attempt : Nat) : Bool :=
  match w.config.attempts with
  | some limit => limit ≤ attempt
  | none => false

def listFailed (p : Purpose) (w : Engine α) : Step α :=
  let w := { w with failing := true }
  match p with
  | .start attempt =>
    if w.givesUp attempt then w.failStart (.firstListFailed w.config.name attempt)
    else w.waitForList p
  | p => w.waitForList p

def watchFailed (e : WatchError) (w : Engine α) : Step α :=
  if e.needsList then w.askList (.relist none)
  else waitForWatch { w with failing := true }

def finishCancelled (w : Engine α) : Step α :=
  match w.phase with
  | .listing (.start _) | .beforeList (.start _) => w.failStart (.cancelled w.config.name)
  | _ =>
    let (w, outputs) := w.finish
    (w.markStopped, outputs)

/-- One poll of the watch, with the item it applies. When several are ready while a stream is read,
the order in which the choices are written decides: a cancellation, then a request, then what the
stream holds. -/
def step (w : Engine α) : Input α → Option (Step α)
  | .cancel => some ({ w with cancelled := true }, [])
  | .request r =>
    if w.phase = .finished then some (w, [.answered r false])
    else some ({ w with requests := w.requests ++ [r] }, [])
  | .noticeCancel =>
    if w.cancelled ∧ w.phase ≠ .finished then some w.finishCancelled else none
  | .noticeRequest =>
    match w.phase, w.cancelled, w.requests with
    | .reading, false, r :: rest => some (askList (.relist (some r)) { w with requests := rest })
    | _, _, _ => none
  | .listed answer =>
    match w.phase, answer with
    | .listing p, .ok l => some (w.listSucceeded p l)
    | .listing p, .error _ => some (w.listFailed p)
    | _, _ => none
  | .opened answer =>
    match w.phase, answer with
    | .opening, .ok _ => some ({ w with phase := .reading, failing := false }, [])
    | .opening, .error e => some (w.watchFailed e)
    | _, _ => none
  | .received item =>
    match w.phase, w.cancelled, w.requests, item with
    | .reading, false, [], .ok e =>
      let (collection, calls) := w.collection.observe e
      some ({ w with collection }, calls.map .call)
    | .reading, false, [], .error e => some (w.watchFailed e)
    | _, _, _, _ => none
  | .closed =>
    match w.phase, w.cancelled, w.requests with
    | .reading, false, [] => some w.waitForWatch
    | _, _, _ => none
  | .elapsed =>
    match w.phase with
    | .beforeList p => some (w.askList p.again)
    | .beforeWatch => some w.openWatch
    | _ => none

end Engine

end BufferLedger
