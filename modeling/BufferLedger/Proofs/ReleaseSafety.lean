import BufferLedger.Proofs.CallLog
import BufferLedger.Proofs.PipelineRun
import BufferLedger.Proofs.PodEnd

/-!
# No entry outlives its pod

An entry is backed as long as its pod is live or the pod's end is still to be written down. The
reconciler looks at the pods when it decides and writes later, so a decision to make an entry must
be backed as well: the pod may end between the two (`backed_of_owed`).
-/

namespace BufferLedger

namespace Pipeline

/-- Pods are added that are not there, updated from what is there and deleted in the phase that is
there. Nothing is asked of machines. -/
def Expects (s : Pipeline) : Event → Prop
  | .pods (.add p) => s.view.pods.get? p.metadata.key = none
  | .pods (.update old new) => s.view.pods.get? new.metadata.key = some old
  | .pods (.delete p _) =>
    ∀ q, s.view.pods.get? p.metadata.key = some q → p.completed = q.completed
  | _ => True

theorem expects_of_fits {s : Pipeline} {i : Input Pod} {c : Call Pod}
    (h : c.Fits s.view.pods i)
    (phase : ∀ p q, i = .received (.ok (.deleted p)) →
      s.view.pods.get? p.metadata.key = some q → p.completed = q.completed) :
    s.Expects (.pods c) := by
  cases h with
  | add habsent => exact habsent
  | update hold hkey => exact hold
  | missing hlist hold hlost =>
    intro q hq
    obtain rfl := Option.some.inj (hold.symm.trans hq)
    rfl
  | deleted hevent => exact fun q hq => phase _ q hevent hq

/-- The ledger has an entry for the pod, or one is about to be written. -/
def Owed (s : Pipeline) (pod : Key) : Prop :=
  (s.ledger.get? pod).isSome ∨ ∃ item e, s.decided = some (item, .put pod e)

def Dropping (s : Pipeline) (pod : Key) : Prop :=
  ∃ item, item.ends pod = true ∧ s.decided = some (item, .drop pod)

/-- The pod is live, or its end is still to be written down. -/
def Backed (s : Pipeline) (pod : Key) : Prop :=
  s.view.podIsLive pod = true ∨ (∃ item ∈ s.queue, item.ends pod = true) ∨ s.Dropping pod

variable {s : Pipeline} {pod : Key}

/-! ## Calls about pods -/

theorem podIsLive_iff {c : ClusterView} :
    c.podIsLive pod = true ↔ ∃ p, c.pods.get? pod = some p ∧ p.completed = false := by
  unfold ClusterView.podIsLive
  cases c.pods.get? pod <;> simp

theorem live_or_reported {c : Call Pod} (expected : s.Expects (.pods c))
    (hlive : s.view.podIsLive pod = true) :
    (s.seePod c).view.podIsLive pod = true ∨ ∃ item ∈ Pod.work c, item.ends pod = true := by
  obtain ⟨p, hp, hrunning⟩ := podIsLive_iff.1 hlive
  by_cases hk : c.key = pod
  · subst hk
    cases c with
    | add x =>
      have habsent : s.view.pods.get? (Call.add x).key = none := expected
      rw [habsent] at hp
      cases hp
    | update old new =>
      have hold : s.view.pods.get? (Call.update old new).key = some old := expected
      obtain rfl : old = p := Option.some.inj (hold.symm.trans hp)
      cases hnew : new.completed with
      | true => exact .inr (Pod.exists_ends_work (by simp [Call.tellsEnd, hrunning, hnew]))
      | false =>
        left
        exact podIsLive_iff.2 ⟨new, s.view.pods.get?_insert_self _ _, hnew⟩
    | delete x stale =>
      have hsame : x.completed = p.completed := expected p hp
      exact .inr (Pod.exists_ends_work (by simp [Call.tellsEnd, hsame, hrunning]))
  · left
    refine podIsLive_iff.2 ⟨p, ?_, hrunning⟩
    have hne : pod ≠ c.key := Ne.symm hk
    cases c with
    | add x => exact (s.view.pods.get?_insert _ _ _).trans ((if_neg hne).trans hp)
    | update old new => exact (s.view.pods.get?_insert _ _ _).trans ((if_neg hne).trans hp)
    | delete x stale => exact (s.view.pods.get?_erase _ _).trans ((if_neg hne).trans hp)

theorem seePod_queue (c : Call Pod) (s : Pipeline) : (s.seePod c).queue = s.queue := by
  cases c <;> rfl

theorem seePod_decided (c : Call Pod) (s : Pipeline) : (s.seePod c).decided = s.decided := by
  cases c <;> rfl

theorem seePod_ledger (c : Call Pod) (s : Pipeline) : (s.seePod c).ledger = s.ledger := by
  cases c <;> rfl

theorem Backed.podCall {c : Call Pod} (expected : s.Expects (.pods c)) (h : s.Backed pod) :
    (s.podCall c).Backed pod := by
  have hqueue : (s.podCall c).queue = s.queue ++ Pod.work c :=
    congrArg (· ++ Pod.work c) (seePod_queue c s)
  rcases h with hlive | ⟨item, hitem, hends⟩ | ⟨item, hends, hdecided⟩
  · rcases live_or_reported expected hlive with hlive | ⟨item, hitem, hends⟩
    · exact .inl hlive
    · exact .inr (.inl ⟨item, hqueue ▸ List.mem_append_right _ hitem, hends⟩)
  · exact .inr (.inl ⟨item, hqueue ▸ List.mem_append_left _ hitem, hends⟩)
  · exact .inr (.inr ⟨item, hends, (seePod_decided c s).trans hdecided⟩)

theorem Owed.of_podCall {c : Call Pod} (h : (s.podCall c).Owed pod) : s.Owed pod := by
  rcases h with h | ⟨item, e, h⟩
  · exact .inl (seePod_ledger c s ▸ h)
  · exact .inr ⟨item, e, (seePod_decided c s).symm.trans h⟩

/-! ## Calls about machines -/

theorem Backed.machineCall (c : Call VirtualMachine) (h : s.Backed pod) :
    (s.machineCall c).Backed pod := by
  have hqueue : ∀ item ∈ s.queue, item ∈ (s.machineCall c).queue := by
    intro item hitem
    cases c <;> exact List.mem_append_left _ hitem
  rcases h with hlive | ⟨item, hitem, hends⟩ | ⟨item, hends, hdecided⟩
  · left
    cases c <;> exact hlive
  · exact .inr (.inl ⟨item, hqueue item hitem, hends⟩)
  · refine .inr (.inr ⟨item, hends, ?_⟩)
    cases c <;> exact hdecided

theorem Owed.of_machineCall {c : Call VirtualMachine} (h : (s.machineCall c).Owed pod) :
    s.Owed pod := by
  cases c <;> exact h

/-! ## The reconciler -/

theorem decide_of_ends {c : ClusterView} {item : WorkItem} (h : item.ends pod = true) :
    Reconciler.decide c item = .drop pod := by
  cases item with
  | machinePodGone key => simpa [WorkItem.ends, Reconciler.decide] using h
  | podGone key => simpa [WorkItem.ends, Reconciler.decide] using h
  | scalingDisabled key => cases h
  | boundsChanged p key => cases h
  | observed p key => cases h
  | podStarted key machine => cases h

theorem Backed.decideNext (h : s.Backed pod) : s.decideNext.Backed pod := by
  rcases s.decideNext_cases with hsame | ⟨item, rest, hidle, hq, hnext⟩
  · rw [hsame]
    exact h
  · rw [hnext]
    rcases h with hlive | ⟨report, hreport, hends⟩ | ⟨report, -, hdecided⟩
    · exact .inl hlive
    · rw [hq] at hreport
      rcases List.mem_cons.1 hreport with rfl | hrest
      · refine .inr (.inr ⟨report, hends, ?_⟩)
        rw [decide_of_ends hends]
      · exact .inr (.inl ⟨report, hrest, hends⟩)
    · rw [hidle] at hdecided
      cases hdecided

theorem backed_decideNext (h : s.Owed pod → s.Backed pod) (howed : s.decideNext.Owed pod) :
    s.decideNext.Backed pod := by
  rcases s.decideNext_cases with hsame | ⟨item, rest, hidle, hq, hnext⟩
  · rw [hsame] at howed ⊢
    exact h howed
  · rcases howed with hledger | ⟨taken, e, hput⟩
    · rw [hnext] at hledger
      exact (h (.inl hledger)).decideNext
    · rw [hnext] at hput ⊢
      obtain ⟨-, hdecide⟩ := Prod.mk.inj (Option.some.inj hput)
      exact .inl (Reconciler.podIsLive_of_put hdecide)

theorem backed_write (h : s.Owed pod → s.Backed pod) (howed : s.write.Owed pod) :
    s.write.Backed pod := by
  cases hd : s.decided with
  | none =>
    rw [write_of_idle hd] at howed ⊢
    exact h howed
  | some taken =>
    obtain ⟨item, d⟩ := taken
    rw [write_of_decided hd] at howed ⊢
    rcases howed with hledger | ⟨_, _, hnone⟩
    · have hbefore : s.Owed pod ∧ d ≠ .drop pod := by
        rcases Ledger.isSome_perform hledger with ⟨e, rfl⟩ | ⟨hledger, hd'⟩
        · exact ⟨.inr ⟨item, e, hd⟩, Decision.noConfusion⟩
        · exact ⟨.inl hledger, hd'⟩
      -- What the ledger still has was not owed to the drop that is written now.
      rcases h hbefore.1 with hlive | hqueue | ⟨report, -, hdrop⟩
      · exact .inl hlive
      · exact .inr (.inl hqueue)
      · rw [hd] at hdrop
        exact absurd (Prod.mk.inj (Option.some.inj hdrop)).2 hbefore.2
    · cases hnone

/-! ## Runs -/

theorem backed_after {e : Event} (expected : s.Expects e)
    (h : ∀ pod, s.Owed pod → s.Backed pod) (pod : Key) (howed : (s.after e).Owed pod) :
    (s.after e).Backed pod := by
  cases e with
  | pods c => exact (h pod howed.of_podCall).podCall expected
  | machines c => exact (h pod howed.of_machineCall).machineCall c
  | decide => exact backed_decideNext (h pod) howed
  | write => exact backed_write (h pod) howed

theorem backed_of_owed {events : List Event} (run : Run Expects events s) :
    ∀ pod, s.Owed pod → s.Backed pod := by
  refine run.invariant (I := fun s => ∀ pod, s.Owed pod → s.Backed pod) ?_ ?_
  · rintro pod (hledger | ⟨item, e, hnone⟩)
    · cases hledger
    · cases hnone
  · intro s e h expected pod
    exact backed_after expected h pod

theorem Backed.live_of_drained (h : s.Backed pod) (hqueue : s.queue = [])
    (hidle : s.decided = none) : s.view.podIsLive pod = true := by
  rcases h with hlive | ⟨item, hitem, -⟩ | ⟨item, -, hdrop⟩
  · exact hlive
  · rw [hqueue] at hitem
    cases hitem
  · rw [hidle] at hdrop
    cases hdrop

/-- Every entry is of a pod that is there and has not completed, or a report of the pod's end is
queued or being written; so once all is done every entry is of a pod that is live. -/
theorem entries_of_live_pods {events : List Event} (run : Run Expects events s) :
    (∀ pod, (s.ledger.get? pod).isSome →
      (∃ p, s.view.pods.get? pod = some p ∧ p.completed = false) ∨
        (∃ item ∈ s.queue, item.ends pod = true) ∨
        ∃ item, item.ends pod = true ∧ s.decided = some (item, .drop pod)) ∧
    (s.queue = [] → s.decided = none → ∀ pod, (s.ledger.get? pod).isSome →
      ∃ p, s.view.pods.get? pod = some p ∧ p.completed = false) := by
  refine ⟨?_, ?_⟩
  · intro pod hledger
    rcases backed_of_owed run pod (.inl hledger) with hlive | hpending
    · exact .inl (podIsLive_iff.1 hlive)
    · exact .inr hpending
  · intro hqueue hidle pod hledger
    rcases backed_of_owed run pod (.inl hledger) with hlive | ⟨item, hitem, -⟩ | ⟨item, -, hdrop⟩
    · exact podIsLive_iff.1 hlive
    · rw [hqueue] at hitem
      cases hitem
    · rw [hidle] at hdrop
      cases hdrop

def lateWrite : List Event :=
  [.pods (.add (.sample "a" "1" "Running")), .machines (.add (.sample "vm" "a")), .decide, .write,
   .decide, .pods (.delete (.sample "a" "2" "Running") false), .write]

theorem entries_after_late_write :
    Run Expects lateWrite (lateWrite.foldl after .empty) ∧
      ((lateWrite.foldl after .empty).ledger.get? ⟨"default", "a"⟩).isSome ∧
      ∃ item ∈ (lateWrite.foldl after .empty).queue, item.ends ⟨"default", "a"⟩ = true := by
  have allowed : Allowed Expects .empty lateWrite := by
    refine ⟨rfl, trivial, trivial, trivial, trivial, ?_, trivial, trivial⟩
    intro q hq
    cases hq
    rfl
  have run := Run.start.follow allowed
  have hledger : ((lateWrite.foldl after .empty).ledger.get? ⟨"default", "a"⟩).isSome := by decide
  refine ⟨run, hledger, ?_⟩
  rcases (entries_of_live_pods run).1 _ hledger with ⟨p, hp, -⟩ | hqueue | ⟨item, -, hdrop⟩
  · cases hp
  · exact hqueue
  · cases hdrop

end Pipeline

end BufferLedger
