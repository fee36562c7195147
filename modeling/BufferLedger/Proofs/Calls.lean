import BufferLedger.Watch.Collection

/-!
# What a call says about a key

A call is about one key and says which object, if any, the key has from then on. Following calls
one after the other (`replay`) is therefore a matter of each key alone: only the calls about a key
decide what it has (`get?_replay`).
-/

namespace BufferLedger

open ClusterObject (key)

variable {α : Type} [ClusterObject α]

namespace Call

def key : Call α → Key
  | .add x | .update _ x | .delete x _ => ClusterObject.key x

def result : Call α → Option α
  | .add x | .update _ x => some x
  | .delete .. => none

theorem key_of_result {x : α} (c : Call α) (h : c.result = some x) :
    ClusterObject.key x = c.key := by
  cases c with
  | add y | update old y =>
    cases h
    rfl
  | delete y stale => cases h

def applyTo (c : Call α) (m : OrderedMap Key α) : OrderedMap Key α :=
  match c with
  | .add x | .update _ x => m.insert (ClusterObject.key x) x
  | .delete x _ => m.erase (ClusterObject.key x)

theorem get?_applyTo (c : Call α) (m : OrderedMap Key α) (k : Key) :
    (c.applyTo m).get? k = if k = c.key then c.result else m.get? k := by
  cases c with
  | add x => exact m.get?_insert _ _ _
  | update old x => exact m.get?_insert _ _ _
  | delete x stale => exact m.get?_erase _ _

def isDeletion : Call α → Bool
  | .delete .. => true
  | _ => false

end Call

def callsAbout (k : Key) (calls : List (Call α)) : List (Call α) :=
  calls.filter fun c => c.key = k

theorem mem_callsAbout {k : Key} {calls : List (Call α)} {c : Call α} :
    c ∈ callsAbout k calls ↔ c ∈ calls ∧ c.key = k := by
  simp [callsAbout]

theorem callsAbout_append (k : Key) (a b : List (Call α)) :
    callsAbout k (a ++ b) = callsAbout k a ++ callsAbout k b :=
  List.filter_append ..

theorem callsAbout_eq_self {k : Key} {calls : List (Call α)} (h : ∀ c ∈ calls, c.key = k) :
    callsAbout k calls = calls := by
  simpa [callsAbout] using h

theorem callsAbout_eq_nil {k : Key} {calls : List (Call α)} (h : ∀ c ∈ calls, c.key ≠ k) :
    callsAbout k calls = [] := by
  simpa [callsAbout] using h

def replay (m : OrderedMap Key α) (calls : List (Call α)) : OrderedMap Key α :=
  calls.foldl (fun m c => c.applyTo m) m

theorem replay_append (m : OrderedMap Key α) (a b : List (Call α)) :
    replay m (a ++ b) = replay (replay m a) b :=
  List.foldl_append

theorem get?_replay (m : OrderedMap Key α) (calls : List (Call α)) (k : Key) :
    (replay m calls).get? k = (callsAbout k calls).foldl (fun _ c => c.result) (m.get? k) := by
  induction calls generalizing m with
  | nil => rfl
  | cons c calls ih =>
    have hstep : (replay m (c :: calls)).get? k = (replay (c.applyTo m) calls).get? k := rfl
    rw [hstep, ih, c.get?_applyTo]
    by_cases hk : c.key = k
    · simp [callsAbout, hk]
    · simp [callsAbout, hk, Ne.symm hk]

end BufferLedger
