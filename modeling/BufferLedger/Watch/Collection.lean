import BufferLedger.Cluster.Metadata
import BufferLedger.Watch.Call

/-!
# Watched collections

The local copy of a collection: its objects by key, and the version up to which it is current.
A list replaces the copy and is told as the difference to it; an event changes one object. Both
give the calls that tell of the change.
-/

namespace BufferLedger

open ClusterObject (key)

structure Listing (α : Type) where
  version : Option String
  items : List α

inductive WatchEvent (α : Type)
  | added (object : α)
  | modified (object : α)
  | deleted (object : α)
  | bookmark (version : String)

structure Collection (α : Type) where
  objects : OrderedMap Key α
  version : String

namespace Collection

variable {α : Type} [ClusterObject α]

def empty : Collection α := ⟨.empty, ""⟩

def callsFor (old : Option α) (x : α) : List (Call α) :=
  match old with
  | none => [.add x]
  | some old =>
    if ClusterObject.version old ≠ ClusterObject.version x then [.update old x] else []

/-- The listed objects in order: those of the old copy that are not listed, the new copy and
the calls. -/
def merge : List α → OrderedMap Key α → OrderedMap Key α →
    OrderedMap Key α × OrderedMap Key α × List (Call α)
  | [], old, new => (old, new, [])
  | x :: xs, old, new =>
    let (left, objects, calls) := merge xs (old.erase (key x)) (new.insert (key x) x)
    (left, objects, callsFor (old.get? (key x)) x ++ calls)

/-- Replaces the copy by a list. What is no longer listed was deleted at some time. -/
def replace (l : Listing α) (c : Collection α) : Collection α × List (Call α) :=
  let (left, objects, calls) := merge l.items c.objects .empty
  (⟨objects, l.version.getD ""⟩, calls ++ left.values.map fun old => .delete old true)

def versionAfter (c : Collection α) (x : α) : String :=
  (ClusterObject.version x).getD c.version

/-- Adds an object or replaces the one of its key, whatever the event is called. -/
def put (x : α) (c : Collection α) : Collection α × List (Call α) :=
  (⟨c.objects.insert (key x) x, c.versionAfter x⟩,
   match c.objects.get? (key x) with
   | some old => [.update old x]
   | none => [.add x])

def observe (e : WatchEvent α) (c : Collection α) : Collection α × List (Call α) :=
  match e with
  | .added x | .modified x => c.put x
  | .deleted x => (⟨c.objects.erase (key x), c.versionAfter x⟩, [.delete x false])
  | .bookmark version => ({ c with version }, [])

end Collection

end BufferLedger
