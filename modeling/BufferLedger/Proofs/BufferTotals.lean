import BufferLedger.Proofs.Isolation
import Mathlib.Algebra.BigOperators.Group.Finset.Basic
import Mathlib.Algebra.GroupWithZero.Nat
import Mathlib.Algebra.Order.BigOperators.Group.Finset

/-!
# Totals of buffers

Adding up with a cap at every step and capping the exact sum come to the same
(`Ledger.cappedSum_eq`), so a total depends on which entries there are and on nothing else. After
any writes it is the capped sum, over the pods that have an entry, of what was last written for
them (`Ledger.totals_are_capped_sums`).
-/

namespace BufferLedger

def Entry.buffer (e : Entry) : Resource → Nat
  | .cpu => e.cpu.buffer
  | .memory => e.mem.buffer

/-! ## Capped sums -/

theorem capped_capped_add (a b : Nat) : capped (capped a + b) = capped (a + b) := by
  unfold capped
  omega

theorem capped_mono {a b : Nat} (h : a ≤ b) : capped a ≤ capped b := by
  unfold capped
  omega

namespace Ledger

def cappedSum (amount : Entry → Nat) (es : List Entry) : Nat :=
  es.foldl (fun sum e => capped (sum + amount e)) 0

theorem foldl_capped (amount : Entry → Nat) (es : List Entry) (start : Nat) :
    es.foldl (fun sum e => capped (sum + amount e)) (capped start) =
      capped (start + (es.map amount).sum) := by
  induction es generalizing start with
  | nil => simp
  | cons e es ih =>
    rw [List.foldl_cons, capped_capped_add, ih, List.map_cons, List.sum_cons, Nat.add_assoc]

theorem cappedSum_eq (amount : Entry → Nat) (es : List Entry) :
    cappedSum amount es = capped (es.map amount).sum := by
  calc cappedSum amount es
      = es.foldl (fun sum e => capped (sum + amount e)) (capped 0) := rfl
    _ = capped (es.map amount).sum := by rw [foldl_capped, Nat.zero_add]

theorem cappedSum_perm {amount : Entry → Nat} {es es' : List Entry} (h : es.Perm es') :
    cappedSum amount es = cappedSum amount es' := by
  rw [cappedSum_eq, cappedSum_eq, (h.map amount).sum_eq]

/-! ## The entries of a ledger -/

def pods (l : Ledger) : Finset Key :=
  l.entries.keys.toFinset

variable {l l' : Ledger} {pod : Key}

theorem mem_pods : pod ∈ l.pods ↔ (l.get? pod).isSome := by
  simp [pods, OrderedMap.keys, OrderedMap.mem_toList_iff, Option.isSome_iff_exists, get?]

def amountAt (amount : Entry → Nat) (l : Ledger) (pod : Key) : Nat :=
  (l.get? pod).elim 0 amount

theorem sum_values (amount : Entry → Nat) (l : Ledger) :
    (l.entries.values.map amount).sum = ∑ pod ∈ l.pods, l.amountAt amount pod := by
  rw [pods, List.sum_toFinset _ l.entries.nodup_keys, OrderedMap.values, OrderedMap.keys,
    List.map_map, List.map_map]
  congr 1
  refine List.map_congr_left fun entry he => ?_
  have hget : l.get? entry.1 = some entry.2 := OrderedMap.mem_toList_iff.1 he
  simp [amountAt, hget]

theorem total_eq (amount : Entry → Nat) (l : Ledger) :
    l.total amount = capped (∑ pod ∈ l.pods, l.amountAt amount pod) := by
  rw [← sum_values]
  exact cappedSum_eq amount l.entries.values

theorem total_eq_of_subset (amount : Entry → Nat) {s : Finset Key} (h : l.pods ⊆ s) :
    l.total amount = capped (∑ pod ∈ s, l.amountAt amount pod) := by
  rw [total_eq, Finset.sum_subset h]
  intro pod _ hnot
  rw [mem_pods, Option.not_isSome_iff_eq_none] at hnot
  simp [amountAt, hnot]

theorem total_mono {amount : Entry → Nat}
    (h : ∀ pod old, l.get? pod = some old →
      ∃ new, l'.get? pod = some new ∧ amount old ≤ amount new) :
    l.total amount ≤ l'.total amount := by
  have hleft : l.pods ⊆ l.pods ∪ l'.pods := Finset.subset_union_left
  have hright : l'.pods ⊆ l.pods ∪ l'.pods := Finset.subset_union_right
  rw [total_eq_of_subset amount hleft, total_eq_of_subset amount hright]
  refine capped_mono (Finset.sum_le_sum fun pod _ => ?_)
  cases hold : l.get? pod with
  | none => simp [amountAt, hold]
  | some old =>
    obtain ⟨new, hnew, hle⟩ := h pod old hold
    simpa [amountAt, hold, hnew] using hle

/-! ## Writes -/

section Writes

variable {amount : Entry → Nat} {e : Entry}

theorem total_le_upsert (h : ∀ old, l.get? pod = some old → amount old ≤ amount e) :
    l.total amount ≤ (l.upsert pod e).1.total amount := by
  refine total_mono fun other old hold => ?_
  rw [get?_upsert]
  split
  · subst other
    exact ⟨e, rfl, h old hold⟩
  · exact ⟨old, hold, Nat.le_refl _⟩

theorem total_le_updateExisting (h : ∀ old, l.get? pod = some old → amount old ≤ amount e) :
    l.total amount ≤ (l.updateExisting pod e).1.total amount := by
  refine total_mono fun other old hold => ?_
  rw [get?_updateExisting]
  split
  · subst other
    exact ⟨e, by rw [hold, Option.map_some], h old hold⟩
  · exact ⟨old, hold, Nat.le_refl _⟩

end Writes

/-- The ledger after writes to an empty one, each of which puts, replaces or drops an entry. -/
def ofWrites (writes : List Decision) : Ledger :=
  writes.foldl perform empty

/-- What the writes make of the entry of one pod, the latest one counting. -/
def latest (pod : Key) (writes : List Decision) : Option Entry :=
  writes.foldl (fun old d => d.onEntry pod old) none

theorem get?_foldl_perform (writes : List Decision) (l : Ledger) (pod : Key) :
    (writes.foldl perform l).get? pod =
      writes.foldl (fun old d => d.onEntry pod old) (l.get? pod) := by
  induction writes generalizing l with
  | nil => rfl
  | cons d writes ih => rw [List.foldl_cons, ih, get?_perform, List.foldl_cons]

theorem get?_ofWrites (writes : List Decision) (pod : Key) :
    (ofWrites writes).get? pod = latest pod writes :=
  get?_foldl_perform writes empty pod

def buffer (l : Ledger) : Resource → Nat
  | .cpu => l.cpuBuffer
  | .memory => l.memoryBuffer

theorem buffer_eq (l : Ledger) (resource : Resource) :
    l.buffer resource = l.total (·.buffer resource) := by
  cases resource <;> rfl

/-- A total is the capped sum of what was last written for the pods that have an entry, whichever
way the entries are added up and in whatever order they were written. An entry that is new, or takes
the place of one with no larger buffer, does not lower it. -/
theorem totals_are_capped_sums (resource : Resource) (writes : List Decision) :
    (∃ pods : Finset Key, (∀ pod, pod ∈ pods ↔ (latest pod writes).isSome) ∧
      (ofWrites writes).buffer resource =
        capped (∑ pod ∈ pods, (latest pod writes).elim 0 (·.buffer resource))) ∧
    (∀ es, es.Perm (ofWrites writes).entries.values →
      cappedSum (·.buffer resource) es = (ofWrites writes).buffer resource) ∧
    (∀ others, (∀ pod, latest pod others = latest pod writes) →
      (ofWrites others).buffer resource = (ofWrites writes).buffer resource) ∧
    (∀ pod e, (∀ old, latest pod writes = some old → old.buffer resource ≤ e.buffer resource) →
      (ofWrites writes).buffer resource ≤ ((ofWrites writes).upsert pod e).1.buffer resource ∧
      (ofWrites writes).buffer resource ≤
        ((ofWrites writes).updateExisting pod e).1.buffer resource) := by
  simp only [buffer_eq, ← get?_ofWrites]
  refine ⟨⟨(ofWrites writes).pods, fun pod => mem_pods, total_eq _ _⟩, ?_, ?_, ?_⟩
  · intro es hes
    exact cappedSum_perm hes
  · intro others hsame
    rw [ext_get? hsame]
  · intro pod e hlarger
    exact ⟨total_le_upsert hlarger, total_le_updateExisting hlarger⟩

def withMemoryBuffer (bytes : Nat) : Entry :=
  ⟨⟨"default", "vm"⟩, ⟨1000, 3000⟩, ⟨1, bytes⟩⟩

def mixedWrites : List Decision :=
  [.put ⟨"default", "a"⟩ (withMemoryBuffer 10), .replace ⟨"default", "c"⟩ (withMemoryBuffer 5),
   .put ⟨"default", "b"⟩ (withMemoryBuffer Text.word64Max),
   .replace ⟨"default", "a"⟩ (withMemoryBuffer 20)]

def plainWrites : List Decision :=
  [.put ⟨"default", "b"⟩ (withMemoryBuffer Text.word64Max),
   .put ⟨"default", "a"⟩ (withMemoryBuffer 20)]

theorem latest_plainWrites (pod : Key) : latest pod plainWrites = latest pod mixedWrites := by
  have hab : (⟨"default", "a"⟩ : Key) ≠ ⟨"default", "b"⟩ := by decide
  simp only [latest, plainWrites, mixedWrites, List.foldl_cons, List.foldl_nil, Decision.onEntry]
  by_cases ha : pod = ⟨"default", "a"⟩
  · simp [ha, hab]
  · by_cases hb : pod = ⟨"default", "b"⟩ <;> simp [ha, hb]

theorem totals_at_cap :
    (ofWrites mixedWrites).buffer .memory = Text.word64Max ∧
    (∀ pod, latest pod plainWrites = latest pod mixedWrites) ∧
    (ofWrites plainWrites).buffer .memory = Text.word64Max ∧
    cappedSum (·.buffer .memory) [withMemoryBuffer Text.word64Max, withMemoryBuffer 20] =
      Text.word64Max ∧
    (ofWrites mixedWrites).buffer .memory ≤
      ((ofWrites mixedWrites).upsert ⟨"default", "a"⟩ (withMemoryBuffer 30)).1.buffer .memory := by
  obtain ⟨-, hfold, horder, hlarger⟩ := totals_are_capped_sums .memory mixedWrites
  have htotal : (ofWrites mixedWrites).buffer .memory = Text.word64Max := rfl
  have hperm : [withMemoryBuffer Text.word64Max, withMemoryBuffer 20].Perm
      (ofWrites mixedWrites).entries.values := .swap _ _ []
  have hold : latest ⟨"default", "a"⟩ mixedWrites = some (withMemoryBuffer 20) := rfl
  refine ⟨htotal, latest_plainWrites, ?_, ?_, ?_⟩
  · rw [horder plainWrites latest_plainWrites, htotal]
  · rw [hfold _ hperm, htotal]
  · refine (hlarger ⟨"default", "a"⟩ (withMemoryBuffer 30) fun old h => ?_).1
    rw [hold] at h
    cases h
    decide

end Ledger

end BufferLedger
