import BufferLedger.Watch.Engine

/-!
# Rehearsals

A watch run against a script instead of a server, in virtual time. The script holds the answers
to list requests and to requests for a watch, each taken in order. A list waits until there is
an answer; a watch for which there is none gets a stream that stays silent until events are put
into it. Time moves only when nothing can happen at the present moment, and every delay lasts as
long as the least of its range.
-/

namespace BufferLedger

structure EventStream (α : Type) where
  items : List (Except WatchError (WatchEvent α))
  ends : Bool

inductive OpenAnswer (α : Type)
  | stream (s : EventStream α)
  | refused (e : WatchError)
  | silence

/-- A watch, the rest of its script, the stream that it reads, and the time in nanoseconds: the
present moment and the end of the present delay. -/
structure Rehearsal (α : Type) where
  engine : Engine α
  lists : List (Except WatchError (Listing α))
  opens : List (OpenAnswer α)
  stream : EventStream α
  now : Nat
  wake : Nat
  record : List (Nat × Output α)

structure Script (α : Type) where
  lists : List (Except WatchError (Listing α))
  opens : List (OpenAnswer α)

namespace Rehearsal

variable {α : Type} [ClusterObject α]

def delayNanos (config : WatchConfig) : DelayKind → Nat
  | .list => config.relistDelay.min.toNanos
  | .watch => config.watchDelay.min.toNanos

def note (outputs : List (Output α)) (s : Rehearsal α) : Rehearsal α :=
  outputs.foldl (fun s o =>
    let s := { s with record := (s.now, o) :: s.record }
    match o with
    | .delay kind => { s with wake := s.now + delayNanos s.engine.config kind }
    | _ => s) s

def start (config : WatchConfig) (mode : StartMode) (script : Script α) (now : Nat) :
    Rehearsal α :=
  let (engine, outputs) := Engine.start config mode
  note outputs ⟨engine, script.lists, script.opens, ⟨[], false⟩, now, now, []⟩

def feed (i : Input α) (s : Rehearsal α) : Rehearsal α :=
  match s.engine.step i with
  | some (engine, outputs) => note outputs { s with engine }
  | none => s

def next? (s : Rehearsal α) : Option (Nat × Input α × Rehearsal α) :=
  let at' (i : Input α) (s' : Rehearsal α) := some (s.now, i, s')
  if s.engine.cancelled && !s.engine.stopped then at' .noticeCancel s
  else match s.engine.phase with
    | .finished => none
    | .listing _ =>
      match s.lists with
      | answer :: lists => at' (.listed answer) { s with lists }
      | [] => none
    | .opening =>
      match s.opens with
      | .stream stream :: opens => at' (.opened (.ok ())) { s with opens, stream }
      | .refused e :: opens => at' (.opened (.error e)) { s with opens }
      | .silence :: _ => none
      | [] => at' (.opened (.ok ())) { s with stream := ⟨[], false⟩ }
    | .reading =>
      if !s.engine.requests.isEmpty then at' .noticeRequest s
      else match s.stream.items with
        | item :: items => at' (.received item) { s with stream.items := items }
        | [] => if s.stream.ends then at' .closed s else none
    | .beforeList _ | .beforeWatch =>
      some (max s.now s.wake, .elapsed, { s with now := max s.now s.wake })

def remaining (s : Rehearsal α) : Nat :=
  let waiting := s.opens.foldl (fun n o => match o with
    | .stream stream => n + stream.items.length + 2
    | _ => n + 1) 0
  6 * (s.lists.length + waiting + s.stream.items.length + s.engine.requests.length + 2)

def runUntil (deadline : Nat) : Nat → Rehearsal α → Rehearsal α
  | 0, s => s
  | fuel + 1, s =>
    match s.next? with
    | some (time, i, s') =>
      if time ≤ deadline then runUntil deadline fuel (s'.feed i) else s
    | none => s

def advance (nanos : Nat) (s : Rehearsal α) : Rehearsal α :=
  let deadline := s.now + nanos
  { s.runUntil deadline s.remaining with now := deadline }

def listens (s : Rehearsal α) : Bool :=
  s.engine.phase = .reading && !s.stream.ends

def pour (items : List (Except WatchError (WatchEvent α))) (ends : Bool) (s : Rehearsal α) :
    Option (Rehearsal α) :=
  if s.listens then some { s with stream := ⟨s.stream.items ++ items, ends⟩ } else none

def started? (s : Rehearsal α) : Option (Except WatchError Unit) :=
  s.record.reverse.findSome? fun (_, o) =>
    match o with
    | .started result => some result
    | _ => none

def calls (record : List (Nat × Output α)) : List (Call α) :=
  record.filterMap fun (_, o) =>
    match o with
    | .call c => some c
    | _ => none

def answer? (request : Nat) (s : Rehearsal α) : Option Bool :=
  s.record.findSome? fun (_, o) =>
    match o with
    | .answered r served => if r = request then some served else none
    | _ => none

end Rehearsal

end BufferLedger
