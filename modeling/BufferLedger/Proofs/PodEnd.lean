import BufferLedger.Proofs.Calls
import BufferLedger.Work.Classify

/-!
# Items that report the end of a pod

A call about pods asks for at most one item that reports an end: for the pod that the call is
about, and only if the call itself tells of the end.
-/

namespace BufferLedger

namespace WorkItem

def ends (pod : Key) : WorkItem → Bool
  | .machinePodGone p | .podGone p => p = pod
  | _ => false

end WorkItem

/-- The call tells, by the objects it carries, that its pod has come to its end. -/
def Call.tellsEnd : Call Pod → Bool
  | .add _ => false
  | .update old new => !old.completed && new.completed
  | .delete p _ => !p.completed

namespace Pod

theorem ends_release (p : Pod) (pod : Key) :
    p.release.ends pod = decide (p.metadata.key = pod) := by
  unfold release
  split <;> rfl

theorem countP_ends_work (c : Call Pod) (pod : Key) :
    (work c).countP (·.ends pod) = if c.key = pod ∧ c.tellsEnd = true then 1 else 0 := by
  cases c with
  | add p =>
    have hno : ∀ item ∈ work (.add p), item.ends pod = false := by
      intro item h
      simp only [work] at h
      split at h
      · cases h
      · split at h
        · obtain rfl := List.mem_singleton.1 h
          rfl
        · cases h
    simpa [Call.tellsEnd] using hno
  | update old new =>
    cases ho : old.completed <;> cases hn : new.completed <;>
      simp [work, Completion.onUpdate, Call.tellsEnd, ho, hn, ends_release, Call.key,
        ClusterObject.key, ClusterObject.metadata]
  | delete p stale =>
    cases hp : p.completed <;>
      simp [work, Completion.onDelete, Call.tellsEnd, hp, ends_release, Call.key,
        ClusterObject.key, ClusterObject.metadata]

theorem countP_ends_calls (calls : List (Call Pod)) (pod : Key) :
    (calls.flatMap work).countP (·.ends pod) =
      (callsAbout pod calls).countP Call.tellsEnd := by
  induction calls with
  | nil => rfl
  | cons c calls ih =>
    rw [List.flatMap_cons, List.countP_append, countP_ends_work, ih]
    by_cases hk : c.key = pod
    · simp only [callsAbout, hk, decide_true, List.filter_cons_of_pos, List.countP_cons, true_and]
      omega
    · simp [callsAbout, hk]

theorem exists_ends_work {c : Call Pod} (h : c.tellsEnd = true) :
    ∃ item ∈ work c, item.ends c.key = true := by
  have hcount : 0 < (work c).countP (·.ends c.key) := by
    simp [countP_ends_work, h]
  exact List.countP_pos_iff.1 hcount

end Pod

end BufferLedger
