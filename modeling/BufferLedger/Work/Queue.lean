import BufferLedger.Work.Item

/-!
# The work queue

A queue without a limit between the watches and the ledger's writer. Submitting never waits:
what is submitted to a queue that has been closed is dropped. The queue is finished once nobody
can submit any more and it is empty.
-/

namespace BufferLedger

structure WorkQueue where
  items : List WorkItem
  attached : Bool
  closed : Bool
  deriving DecidableEq

inductive Receipt
  | item (item : WorkItem)
  | waiting
  | finished
  | closed
  deriving DecidableEq

namespace WorkQueue

def empty : WorkQueue := ⟨[], true, false⟩

/-- The queue after a submission; nothing if nobody is left to submit. -/
def submit? (item : WorkItem) (q : WorkQueue) : Option WorkQueue :=
  if !q.attached then none
  else if q.closed then some q
  else some { q with items := q.items ++ [item] }

def detach (q : WorkQueue) : WorkQueue :=
  { q with attached := false }

def close (q : WorkQueue) : WorkQueue :=
  { q with items := [], closed := true }

def receive (q : WorkQueue) : WorkQueue × Receipt :=
  if q.closed then (q, .closed)
  else match q.items with
    | item :: rest => ({ q with items := rest }, .item item)
    | [] => (q, if q.attached then .waiting else .finished)

end WorkQueue

end BufferLedger
