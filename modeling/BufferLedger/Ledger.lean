import BufferLedger.OrderedMap
import BufferLedger.Scaling.Profile

/-!
# The ledger

What each virtual machine uses and what is held back for it to grow, by the pod that runs it.
A write returns the entry that it replaced. Totals are exact sums, capped at sixty-four bits.
-/

namespace BufferLedger

structure Reservation where
  used : Nat
  buffer : Nat
  deriving DecidableEq

/-- The reservations of one machine: CPU in thousandths of a core, memory in bytes. -/
structure Entry where
  machine : Key
  cpu : Reservation
  mem : Reservation
  deriving DecidableEq

def Entry.ofProfile (p : Profile) : Entry :=
  ⟨p.key, ⟨p.cpu.use, p.cpu.buffer⟩, ⟨p.memoryUse, p.memoryBuffer⟩⟩

structure Ledger where
  entries : OrderedMap Key Entry
  deriving DecidableEq

namespace Ledger

def empty : Ledger := ⟨.empty⟩

def get? (l : Ledger) (pod : Key) : Option Entry :=
  l.entries.get? pod

def upsert (l : Ledger) (pod : Key) (e : Entry) : Ledger × Option Entry :=
  (⟨l.entries.insert pod e⟩, l.get? pod)

def updateExisting (l : Ledger) (pod : Key) (e : Entry) : Ledger × Option Entry :=
  match l.get? pod with
  | none => (l, none)
  | some old => (⟨l.entries.insert pod e⟩, some old)

def remove (l : Ledger) (pod : Key) : Ledger × Option Entry :=
  (⟨l.entries.erase pod⟩, l.get? pod)

theorem get?_upsert (l : Ledger) (pod other : Key) (e : Entry) :
    (l.upsert pod e).1.get? other = if other = pod then some e else l.get? other :=
  l.entries.get?_insert pod other e

theorem get?_updateExisting (l : Ledger) (pod other : Key) (e : Entry) :
    (l.updateExisting pod e).1.get? other =
      if other = pod then (l.get? pod).map fun _ => e else l.get? other := by
  cases h : l.get? pod with
  | none =>
    by_cases ho : other = pod
    · subst ho
      simp [updateExisting, h]
    · simp [updateExisting, h, ho]
  | some old =>
    simp only [updateExisting, h, Option.map_some]
    exact l.entries.get?_insert pod other e

theorem get?_remove (l : Ledger) (pod other : Key) :
    (l.remove pod).1.get? other = if other = pod then none else l.get? other :=
  l.entries.get?_erase pod other

def total (amount : Entry → Nat) (l : Ledger) : Nat :=
  l.entries.values.foldl (fun sum e => capped (sum + amount e)) 0

def cpuBuffer (l : Ledger) : Nat :=
  l.total (·.cpu.buffer)

def memoryBuffer (l : Ledger) : Nat :=
  l.total (·.mem.buffer)

end Ledger

end BufferLedger
