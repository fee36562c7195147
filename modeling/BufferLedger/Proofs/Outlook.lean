import BufferLedger.Proofs.ReleaseSafety

/-!
# The outlook for one pod

Decisions and items act on the entry of each pod by itself. What a pod's entry will be once the
pending decision is written and the queue is worked through in some view is the outlook for the
pod. The reconciler does not change the outlook in the view that it has, and a call appends to it;
what a call can change is the view. Whether there will be an entry at all depends only on which
items drop one and which put one (`Reconciler.isSome_onEntry`, `heldAfter`).
-/

namespace BufferLedger

/-! ## One entry -/

/-- What a decision makes of the entry of one pod. -/
def Decision.onEntry (pod : Key) (d : Decision) (old : Option Entry) : Option Entry :=
  match d with
  | .keep => old
  | .put key e => if pod = key then some e else old
  | .replace key e => if pod = key then old.map fun _ => e else old
  | .drop key => if pod = key then none else old

def Decision.puts (pod : Key) : Decision → Bool
  | .put key _ => pod = key
  | _ => false

theorem Ledger.get?_perform (l : Ledger) (d : Decision) (pod : Key) :
    (l.perform d).get? pod = d.onEntry pod (l.get? pod) := by
  cases d with
  | keep => rfl
  | put key e => exact l.get?_upsert key pod e
  | replace key e =>
    have h := l.get?_updateExisting key pod e
    by_cases hk : pod = key
    · subst hk
      simpa [perform, Decision.onEntry] using h
    · simpa [perform, Decision.onEntry, hk] using h
  | drop key => exact l.get?_remove key pod

theorem Decision.isSome_onEntry (pod : Key) (d : Decision) (old : Option Entry) :
    (d.onEntry pod old).isSome =
      (decide (d ≠ .drop pod) && (old.isSome || d.puts pod)) := by
  cases d with
  | keep => simp [onEntry, puts]
  | put key e => by_cases hk : pod = key <;> simp [onEntry, puts, hk]
  | replace key e => by_cases hk : pod = key <;> simp [onEntry, puts, hk]
  | drop key =>
    by_cases hk : pod = key
    · simp [onEntry, hk]
    · simp [onEntry, puts, hk, Ne.symm hk]

namespace WorkItem

def drops (pod : Key) : WorkItem → Bool
  | .machinePodGone key | .podGone key | .scalingDisabled key => key = pod
  | _ => false

theorem drops_of_ends {item : WorkItem} {pod : Key} (h : item.ends pod = true) :
    item.drops pod = true := by
  cases item with
  | machinePodGone key | podGone key => exact h
  | scalingDisabled key | boundsChanged p key | observed p key | podStarted key machine => cases h

theorem pod_of_drops {item : WorkItem} {pod : Key} (h : item.drops pod = true) :
    item.pod = pod := by
  cases item with
  | machinePodGone key | podGone key | scalingDisabled key => exact of_decide_eq_true h
  | boundsChanged p key | observed p key | podStarted key machine => cases h

end WorkItem

namespace Reconciler

variable {c : ClusterView} {item : WorkItem} {pod : Key}

theorem reserve_cases (c : ClusterView) (p : Profile) (pod : Key) :
    reserve c p pod = .put pod (.ofProfile p) ∨ reserve c p pod = .keep := by
  unfold reserve
  split
  · exact .inl rfl
  · exact .inr rfl

theorem decide_cases (c : ClusterView) (item : WorkItem) :
    (item.drops item.pod = true ∧ decide c item = .drop item.pod) ∨
    (∀ key, item.drops key = false) ∧
      (decide c item = .keep ∨ ∃ e, decide c item = .put item.pod e ∨
        decide c item = .replace item.pod e) := by
  cases item with
  | machinePodGone key | podGone key | scalingDisabled key =>
    exact .inl ⟨decide_eq_true rfl, rfl⟩
  | boundsChanged p key =>
    refine .inr ⟨fun _ => rfl, ?_⟩
    simp only [decide]
    split
    · exact .inr ⟨_, .inr rfl⟩
    · exact .inl rfl
  | observed p key =>
    refine .inr ⟨fun _ => rfl, ?_⟩
    rcases reserve_cases c p key with h | h
    · exact .inr ⟨_, .inl h⟩
    · exact .inl h
  | podStarted key machine =>
    refine .inr ⟨fun _ => rfl, ?_⟩
    simp only [decide]
    split
    · exact .inl rfl
    · split
      · split
        · rename_i p _
          rcases reserve_cases c p key with h | h
          · exact .inr ⟨_, .inl h⟩
          · exact .inl h
        · exact .inl rfl
      · exact .inl rfl

theorem decide_of_drops (h : item.drops pod = true) : decide c item = .drop pod := by
  rcases decide_cases c item with ⟨-, hd⟩ | ⟨hno, -⟩
  · rw [hd, WorkItem.pod_of_drops h]
  · rw [hno pod] at h
    cases h

theorem decide_eq_drop_iff : decide c item = .drop pod ↔ item.drops pod = true := by
  refine ⟨fun h => ?_, decide_of_drops⟩
  rcases decide_cases c item with ⟨hdrops, hd⟩ | ⟨-, hd | ⟨e, hd | hd⟩⟩
  · rw [hd] at h
    cases h
    exact hdrops
  all_goals
    rw [hd] at h
    cases h

theorem onEntry_decide_of_ne (h : item.pod ≠ pod) (old : Option Entry) :
    (decide c item).onEntry pod old = old := by
  rcases decide_cases c item with ⟨-, hd⟩ | ⟨-, hd | ⟨e, hd | hd⟩⟩ <;>
    simp [hd, Decision.onEntry, Ne.symm h]

theorem pod_of_puts (h : (decide c item).puts pod = true) : item.pod = pod := by
  rcases decide_cases c item with ⟨-, hd⟩ | ⟨-, hd | ⟨e, hd | hd⟩⟩ <;>
    simp [hd, Decision.puts] at h
  exact h.symm

theorem isSome_onEntry (c : ClusterView) (item : WorkItem) (pod : Key)
    (old : Option Entry) :
    ((decide c item).onEntry pod old).isSome =
      (!item.drops pod && (old.isSome || (decide c item).puts pod)) := by
  have hdrop : Decidable.decide (decide c item ≠ .drop pod) = !item.drops pod := by
    rw [Bool.eq_iff_iff]
    simp [decide_eq_drop_iff]
  rw [Decision.isSome_onEntry, hdrop]

/-! ## A queue of items -/

def settle (c : ClusterView) (pod : Key) (items : List WorkItem) (old : Option Entry) :
    Option Entry :=
  items.foldl (fun e item => (decide c item).onEntry pod e) old

theorem get?_foldl_apply (c : ClusterView) (items : List WorkItem) (l : Ledger) (pod : Key) :
    (items.foldl (Ledger.apply c) l).get? pod = settle c pod items (l.get? pod) := by
  induction items generalizing l with
  | nil => rfl
  | cons item items ih =>
    rw [List.foldl_cons, ih, Ledger.apply, Ledger.get?_perform]
    rfl

theorem settle_cons (c : ClusterView) (pod : Key) (item : WorkItem) (items : List WorkItem)
    (old : Option Entry) :
    settle c pod (item :: items) old = settle c pod items ((decide c item).onEntry pod old) :=
  rfl

theorem settle_append (c : ClusterView) (pod : Key) (items more : List WorkItem)
    (old : Option Entry) :
    settle c pod (items ++ more) old = settle c pod more (settle c pod items old) :=
  List.foldl_append

theorem settle_of_others {items : List WorkItem} (h : ∀ item ∈ items, item.pod ≠ pod)
    (old : Option Entry) : settle c pod items old = old := by
  induction items generalizing old with
  | nil => rfl
  | cons item items ih =>
    have hitem := onEntry_decide_of_ne (c := c) (h item (List.mem_cons_self ..)) old
    have hrest := ih fun other ho => h other (List.mem_cons_of_mem _ ho)
    rw [settle_cons, hitem, hrest]

end Reconciler

/-- Whether there is an entry for the pod after items of which `makes` tells which put one. -/
def heldAfter (makes : WorkItem → Bool) (pod : Key) (items : List WorkItem) (held : Bool) : Bool :=
  items.foldl (fun held item => !item.drops pod && (held || makes item)) held

section Held

variable {makes makes' : WorkItem → Bool} {pod : Key} {items more : List WorkItem}

theorem heldAfter_cons (makes : WorkItem → Bool) (pod : Key) (item : WorkItem)
    (items : List WorkItem) (held : Bool) :
    heldAfter makes pod (item :: items) held =
      heldAfter makes pod items (!item.drops pod && (held || makes item)) :=
  rfl

theorem heldAfter_append (makes : WorkItem → Bool) (pod : Key) (items more : List WorkItem)
    (held : Bool) :
    heldAfter makes pod (items ++ more) held =
      heldAfter makes pod more (heldAfter makes pod items held) :=
  List.foldl_append

theorem heldAfter_mono (hmakes : ∀ item ∈ items, makes item = true → makes' item = true)
    {held held' : Bool} (hheld : held = true → held' = true)
    (h : heldAfter makes pod items held = true) : heldAfter makes' pod items held' = true := by
  induction items generalizing held held' with
  | nil => exact hheld h
  | cons item items ih =>
    have hitem := hmakes item (List.mem_cons_self ..)
    refine ih (fun other ho => hmakes other (List.mem_cons_of_mem _ ho)) ?_ h
    simp only [Bool.and_eq_true, Bool.or_eq_true]
    rintro ⟨hdrops, hbefore⟩
    exact ⟨hdrops, hbefore.imp hheld hitem⟩

theorem heldAfter_of_makes_none (h : ∀ item ∈ items, makes item = false) :
    heldAfter makes pod items false = false := by
  induction items with
  | nil => rfl
  | cons item items ih =>
    have hitem := h item (List.mem_cons_self ..)
    have hrest := ih fun other ho => h other (List.mem_cons_of_mem _ ho)
    simpa [heldAfter_cons, hitem] using hrest

theorem heldAfter_of_drops {item : WorkItem} (hdrops : item.drops pod = true)
    (h : ∀ other ∈ items, makes other = false) (held : Bool) :
    heldAfter makes pod (item :: items) held = false := by
  rw [heldAfter_cons, hdrops]
  exact heldAfter_of_makes_none h

end Held

/-! ## The pipeline -/

namespace Pipeline

theorem podCall_eq (c : Call Pod) (s : Pipeline) :
    s.podCall c =
      { s with view.pods := c.applyTo s.view.pods, queue := s.queue ++ Pod.work c } := by
  cases c <;> rfl

theorem machineCall_eq (c : Call VirtualMachine) (s : Pipeline) :
    s.machineCall c =
      { s with
        view.machines := c.applyTo s.view.machines
        queue := s.queue ++ VirtualMachine.work c } := by
  cases c <;> rfl

theorem podCall_pods (c : Call Pod) (s : Pipeline) :
    (s.podCall c).view.pods = c.applyTo s.view.pods := by
  cases c <;> rfl

theorem podCall_machines (c : Call Pod) (s : Pipeline) :
    (s.podCall c).view.machines = s.view.machines := by
  cases c <;> rfl

theorem machineCall_machines (c : Call VirtualMachine) (s : Pipeline) :
    (s.machineCall c).view.machines = c.applyTo s.view.machines := by
  cases c <;> rfl

theorem machineCall_pods (c : Call VirtualMachine) (s : Pipeline) :
    (s.machineCall c).view.pods = s.view.pods := by
  cases c <;> rfl

theorem get?_podCall (c : Call Pod) (s : Pipeline) (pod : Key) :
    (s.podCall c).view.pods.get? pod = if pod = c.key then c.result else s.view.pods.get? pod := by
  rw [podCall_pods, c.get?_applyTo]

theorem get?_machineCall (c : Call VirtualMachine) (s : Pipeline) (machine : Key) :
    (s.machineCall c).view.machines.get? machine =
      if machine = c.key then c.result else s.view.machines.get? machine := by
  rw [machineCall_machines, c.get?_applyTo]

def due (s : Pipeline) (pod : Key) : Option Entry :=
  match s.decided with
  | none => s.ledger.get? pod
  | some (_, d) => d.onEntry pod (s.ledger.get? pod)

/-- The pod's entry once the queue is worked through in a view. -/
def outlook (c : ClusterView) (pod : Key) (s : Pipeline) : Option Entry :=
  Reconciler.settle c pod s.queue (s.due pod)

variable {s : Pipeline} {pod : Key}

theorem podCall_queue (c : Call Pod) (s : Pipeline) :
    (s.podCall c).queue = s.queue ++ Pod.work c := by
  cases c <;> rfl

theorem machineCall_queue (c : Call VirtualMachine) (s : Pipeline) :
    (s.machineCall c).queue = s.queue ++ VirtualMachine.work c := by
  cases c <;> rfl

theorem due_podCall (c : Call Pod) (s : Pipeline) (pod : Key) :
    (s.podCall c).due pod = s.due pod := by
  cases c <;> rfl

theorem due_machineCall (c : Call VirtualMachine) (s : Pipeline) (pod : Key) :
    (s.machineCall c).due pod = s.due pod := by
  cases c <;> rfl

theorem due_of_idle (hidle : s.decided = none) : s.due pod = s.ledger.get? pod := by
  simp [due, hidle]

theorem write_queue (s : Pipeline) : s.write.queue = s.queue := by
  unfold write
  split <;> rfl

theorem write_view (s : Pipeline) : s.write.view = s.view := by
  unfold write
  split <;> rfl

theorem due_write (s : Pipeline) (pod : Key) : s.write.due pod = s.due pod := by
  cases hd : s.decided with
  | none => rw [write_of_idle hd]
  | some taken =>
    obtain ⟨item, d⟩ := taken
    rw [write_of_decided hd, due, due, hd]
    exact s.ledger.get?_perform d pod

theorem decideNext_view (s : Pipeline) : s.decideNext.view = s.view := by
  unfold decideNext
  split <;> rfl

theorem machines_after {e : Event} (h : ∀ c, e ≠ .machines c) :
    (s.after e).view.machines = s.view.machines := by
  cases e with
  | pods c => exact podCall_machines c s
  | machines c => exact absurd rfl (h c)
  | decide => exact congrArg ClusterView.machines s.decideNext_view
  | write => exact congrArg ClusterView.machines s.write_view

theorem due_decideNext (s : Pipeline) (pod : Key) :
    (s.decideNext.queue = s.queue ∧ s.decideNext.due pod = s.due pod) ∨
    ∃ item, s.queue = item :: s.decideNext.queue ∧
      s.decideNext.due pod = (Reconciler.decide s.view item).onEntry pod (s.due pod) := by
  rcases s.decideNext_cases with hsame | ⟨item, rest, hidle, hq, hnext⟩
  · left
    rw [hsame]
    exact ⟨rfl, rfl⟩
  · right
    refine ⟨item, ?_, ?_⟩
    · rw [hnext, hq]
    · rw [due_of_idle hidle, hnext]
      rfl

theorem decideNext_queue_subset {item : WorkItem} (h : item ∈ s.decideNext.queue) :
    item ∈ s.queue := by
  rcases s.due_decideNext item.pod with ⟨hq, -⟩ | ⟨head, hq, -⟩
  · exact hq ▸ h
  · exact hq ▸ List.mem_cons_of_mem _ h

theorem outlook_write (c : ClusterView) (pod : Key) (s : Pipeline) :
    s.write.outlook c pod = s.outlook c pod := by
  rw [outlook, outlook, write_queue, due_write]

theorem outlook_decideNext (pod : Key) (s : Pipeline) :
    s.decideNext.outlook s.view pod = s.outlook s.view pod := by
  rcases s.due_decideNext pod with ⟨hq, hdue⟩ | ⟨item, hq, hdue⟩
  · rw [outlook, outlook, hq, hdue]
  · rw [outlook, outlook, hdue, hq]
    rfl

theorem outlook_podCall (c : ClusterView) (call : Call Pod) (pod : Key) (s : Pipeline) :
    (s.podCall call).outlook c pod =
      Reconciler.settle c pod (Pod.work call) (s.outlook c pod) := by
  rw [outlook, podCall_queue, due_podCall, Reconciler.settle_append]
  rfl

theorem outlook_machineCall (c : ClusterView) (call : Call VirtualMachine) (pod : Key)
    (s : Pipeline) :
    (s.machineCall call).outlook c pod =
      Reconciler.settle c pod (VirtualMachine.work call) (s.outlook c pod) := by
  rw [outlook, machineCall_queue, due_machineCall, Reconciler.settle_append]
  rfl

theorem outlook_of_drained (c : ClusterView) (hqueue : s.queue = []) (hidle : s.decided = none) :
    s.outlook c pod = s.ledger.get? pod := by
  rw [outlook, hqueue, due_of_idle hidle]
  rfl

/-! ## Entries that are held or will be -/

/-- Whether there will be an entry for the pod, when `makes` tells which items put one. -/
def holds (makes : WorkItem → Bool) (pod : Key) (s : Pipeline) : Bool :=
  heldAfter makes pod s.queue (s.due pod).isSome

theorem holds_write (makes : WorkItem → Bool) (pod : Key) (s : Pipeline) :
    s.write.holds makes pod = s.holds makes pod := by
  rw [holds, holds, write_queue, due_write]

theorem holds_decideNext {makes : WorkItem → Bool}
    (hmakes : ∀ item ∈ s.queue, (Reconciler.decide s.view item).puts pod = true →
      makes item = true)
    (h : s.decideNext.holds makes pod = true) : s.holds makes pod = true := by
  rcases s.due_decideNext pod with ⟨hq, hdue⟩ | ⟨item, hq, hdue⟩
  · rwa [holds, hq, hdue] at h
  · have hitem := hmakes item (hq ▸ List.mem_cons_self ..)
    rw [holds, hq, heldAfter_cons]
    refine heldAfter_mono (fun _ _ hm => hm) ?_ h
    rw [hdue, Reconciler.isSome_onEntry]
    simp only [Bool.and_eq_true, Bool.or_eq_true]
    rintro ⟨hdrop, hput⟩
    exact ⟨hdrop, hput.imp id hitem⟩

theorem holds_decideNext_eq {makes : WorkItem → Bool}
    (hmakes : ∀ item ∈ s.queue, (Reconciler.decide s.view item).puts pod = makes item) :
    s.decideNext.holds makes pod = s.holds makes pod := by
  rcases s.due_decideNext pod with ⟨hq, hdue⟩ | ⟨item, hq, hdue⟩
  · rw [holds, holds, hq, hdue]
  · have hitem := hmakes item (hq ▸ List.mem_cons_self ..)
    rw [holds, holds, hq, heldAfter_cons, hdue, Reconciler.isSome_onEntry, hitem]

theorem holds_podCall (makes : WorkItem → Bool) (c : Call Pod) (pod : Key) (s : Pipeline) :
    (s.podCall c).holds makes pod = heldAfter makes pod (Pod.work c) (s.holds makes pod) := by
  rw [holds, podCall_queue, due_podCall, heldAfter_append]
  rfl

theorem holds_machineCall (makes : WorkItem → Bool) (c : Call VirtualMachine) (pod : Key)
    (s : Pipeline) :
    (s.machineCall c).holds makes pod =
      heldAfter makes pod (VirtualMachine.work c) (s.holds makes pod) := by
  rw [holds, machineCall_queue, due_machineCall, heldAfter_append]
  rfl

theorem holds_of_drained (makes : WorkItem → Bool) (hqueue : s.queue = [])
    (hidle : s.decided = none) : s.holds makes pod = (s.ledger.get? pod).isSome := by
  rw [holds, hqueue, due_of_idle hidle]
  rfl

end Pipeline

end BufferLedger
