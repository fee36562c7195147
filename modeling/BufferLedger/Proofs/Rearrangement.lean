import BufferLedger.Proofs.Isolation
import Mathlib.Logic.Relation

/-!
# Items in another order

In a fixed view an item acts on the entry of its own pod alone, and a second time in a row it does
nothing. So what a queue makes of a pod's entry is what the items about the pod make of it
(`Reconciler.settle_itemsAbout`), and a queue that has the same items about each pod, up to repeats,
leads to the same ledger (`Ledger.apply_rearranged`).
-/

namespace BufferLedger

namespace WorkItem

def itemsAbout (pod : Key) (items : List WorkItem) : List WorkItem :=
  items.filter fun item => item.pod = pod

inductive Repeated : List WorkItem → List WorkItem → Prop
  | once (earlier : List WorkItem) (item : WorkItem) (later : List WorkItem) :
    Repeated (earlier ++ item :: later) (earlier ++ item :: item :: later)

/-- The lists differ only in how often items are repeated immediately after themselves. -/
def SameUpToRepeats : List WorkItem → List WorkItem → Prop :=
  Relation.EqvGen Repeated

end WorkItem

open WorkItem (itemsAbout Repeated SameUpToRepeats)

theorem Decision.onEntry_onEntry (pod : Key) (d : Decision) (old : Option Entry) :
    d.onEntry pod (d.onEntry pod old) = d.onEntry pod old := by
  cases d with
  | keep => rfl
  | put key e | drop key => by_cases hk : pod = key <;> simp [onEntry, hk]
  | replace key e =>
    by_cases hk : pod = key
    · cases old <;> simp [onEntry, hk]
    · simp [onEntry, hk]

namespace Reconciler

variable {c : ClusterView} {pod : Key} {items items' : List WorkItem}

theorem settle_itemsAbout (c : ClusterView) (pod : Key) (items : List WorkItem)
    (old : Option Entry) : settle c pod (itemsAbout pod items) old = settle c pod items old := by
  induction items generalizing old with
  | nil => rfl
  | cons item items ih =>
    rw [settle_cons, itemsAbout, List.filter_cons]
    split
    · rw [settle_cons]
      exact ih _
    · rename_i hother
      rw [onEntry_decide_of_ne (by simpa using hother)]
      exact ih _

theorem settle_of_repeated (h : Repeated items items') (old : Option Entry) :
    settle c pod items' old = settle c pod items old := by
  obtain ⟨earlier, item, later⟩ := h
  simp only [settle_append, settle_cons, Decision.onEntry_onEntry]

theorem settle_of_same (h : SameUpToRepeats items items') (old : Option Entry) :
    settle c pod items old = settle c pod items' old := by
  induction h with
  | rel items items' h => exact (settle_of_repeated h old).symm
  | refl items => rfl
  | symm items items' _ ih => exact ih.symm
  | trans items items' items'' _ _ ih ih' => exact ih.trans ih'

end Reconciler

namespace Ledger

open Reconciler

variable {item other : WorkItem}

theorem get?_apply (c : ClusterView) (l : Ledger) (item : WorkItem) (pod : Key) :
    (l.apply c item).get? pod = (decide c item).onEntry pod (l.get? pod) :=
  l.get?_perform _ pod

theorem apply_apply (c : ClusterView) (l : Ledger) (item : WorkItem) :
    (l.apply c item).apply c item = l.apply c item := by
  refine ext_get? fun pod => ?_
  rw [get?_apply, get?_apply, Decision.onEntry_onEntry]

theorem apply_comm (c : ClusterView) (l : Ledger) (h : item.pod ≠ other.pod) :
    (l.apply c item).apply c other = (l.apply c other).apply c item := by
  refine ext_get? fun pod => ?_
  simp only [get?_apply]
  -- No pod is that of both items, so one of the two leaves the entry as it is.
  by_cases hitem : item.pod = pod
  · have hother : other.pod ≠ pod := fun heq => h (hitem.trans heq.symm)
    rw [onEntry_decide_of_ne hother, onEntry_decide_of_ne hother]
  · rw [onEntry_decide_of_ne hitem, onEntry_decide_of_ne hitem]

/-- In a fixed view an item that is applied again changes nothing, items about different pods can be
swapped, and two queues that have the same items about each pod, up to repeats, lead to the same
ledger. -/
theorem apply_rearranged (c : ClusterView) (l : Ledger) :
    (∀ item, (l.apply c item).apply c item = l.apply c item) ∧
    (∀ item other, item.pod ≠ other.pod →
      (l.apply c item).apply c other = (l.apply c other).apply c item) ∧
    (∀ items items',
      (∀ pod, SameUpToRepeats (itemsAbout pod items) (itemsAbout pod items')) →
      items.foldl (Ledger.apply c) l = items'.foldl (Ledger.apply c) l) := by
  refine ⟨apply_apply c l, fun item other h => apply_comm c l h, ?_⟩
  intro items items' h
  refine ext_get? fun pod => ?_
  calc (items.foldl (Ledger.apply c) l).get? pod
      = settle c pod (itemsAbout pod items) (l.get? pod) := by
        rw [get?_foldl_apply, settle_itemsAbout]
    _ = settle c pod (itemsAbout pod items') (l.get? pod) := settle_of_same (h pod) _
    _ = (items'.foldl (Ledger.apply c) l).get? pod := by
        rw [get?_foldl_apply, settle_itemsAbout]

/-! ## Two pods in turn -/

def twoPods : ClusterView :=
  ⟨.ofList [(⟨"default", "a"⟩, .sample "a" "1" "Running"),
    (⟨"default", "b"⟩, .sample "b" "1" "Running")],
   .ofList [(⟨"default", "vm"⟩, .sample "vm" "a")]⟩

def grownTo (max : Nat) : Profile :=
  ⟨"other", "default", ⟨1000, max, 1000⟩, ⟨1, 4, 1⟩, 1, true⟩

def inTurn : List WorkItem :=
  [.podStarted ⟨"default", "a"⟩ ⟨"default", "vm"⟩, .observed (grownTo 4000) ⟨"default", "b"⟩,
   .machinePodGone ⟨"default", "a"⟩, .machinePodGone ⟨"default", "a"⟩,
   .boundsChanged (grownTo 8000) ⟨"default", "b"⟩]

def oneByOne : List WorkItem :=
  [.observed (grownTo 4000) ⟨"default", "b"⟩, .observed (grownTo 4000) ⟨"default", "b"⟩,
   .boundsChanged (grownTo 8000) ⟨"default", "b"⟩,
   .podStarted ⟨"default", "a"⟩ ⟨"default", "vm"⟩, .machinePodGone ⟨"default", "a"⟩]

theorem same_inTurn (pod : Key) :
    SameUpToRepeats (itemsAbout pod inTurn) (itemsAbout pod oneByOne) := by
  by_cases ha : pod = ⟨"default", "a"⟩
  · subst ha
    exact .symm _ _ (.rel _ _ (.once [.podStarted _ _] (.machinePodGone _) []))
  · by_cases hb : pod = ⟨"default", "b"⟩
    · subst hb
      exact .rel _ _ (.once [] (.observed _ _) [.boundsChanged _ _])
    · have hnone : itemsAbout pod inTurn = itemsAbout pod oneByOne := by
        simp [itemsAbout, inTurn, oneByOne, WorkItem.pod, Ne.symm ha, Ne.symm hb]
      rw [hnone]
      exact .refl _

theorem apply_rearranged_sample :
    (inTurn.foldl (Ledger.apply twoPods) empty).entries.toList =
      [(⟨"default", "b"⟩, .ofProfile (grownTo 8000))] ∧
    oneByOne.foldl (Ledger.apply twoPods) empty = inTurn.foldl (Ledger.apply twoPods) empty ∧
    (⟨"default", "a"⟩ : Key) ≠ ⟨"default", "b"⟩ ∧
    (empty.apply twoPods (.podStarted ⟨"default", "a"⟩ ⟨"default", "vm"⟩)).apply twoPods
        (.observed (grownTo 4000) ⟨"default", "b"⟩) =
      (empty.apply twoPods (.observed (grownTo 4000) ⟨"default", "b"⟩)).apply twoPods
        (.podStarted ⟨"default", "a"⟩ ⟨"default", "vm"⟩) := by
  obtain ⟨-, hswap, hsame⟩ := apply_rearranged twoPods empty
  have hne : (⟨"default", "a"⟩ : Key) ≠ ⟨"default", "b"⟩ := by decide
  exact ⟨rfl, (hsame inTurn oneByOne same_inTurn).symm, hne, hswap _ _ hne⟩

end Ledger

end BufferLedger
