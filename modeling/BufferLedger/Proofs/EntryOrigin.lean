import BufferLedger.Proofs.Grant

/-!
# Where entries come from

A profile reaches the ledger with an item that was queued for a version of a machine, or out of the
view when the start of a pod is decided. Either way it is one by which a version that was seen
grants the pod a reservation. The invariant says so of the mirror, the queue, the pending decision
and the ledger (`Traced`); one decision adds at most one entry, for the pod of its item
(`Reconciler.entry_of_decide`).
-/

namespace BufferLedger

/-- One of the versions grants the pod the reservation that is entered. -/
def EnteredFor (seen : List VirtualMachine) (pod : Key) (e : Entry) : Prop :=
  ∃ v p, v ∈ seen ∧ v.grant? pod = some p ∧ e = .ofProfile p

theorem EnteredFor.mono {seen seen' : List VirtualMachine} {pod : Key} {e : Entry}
    (h : EnteredFor seen pod e) (hseen : seen ⊆ seen') : EnteredFor seen' pod e := by
  obtain ⟨v, p, hv, hgrant, he⟩ := h
  exact ⟨v, p, hseen hv, hgrant, he⟩

/-! ## What a decision enters -/

def Decision.entered? : Decision → Option (Key × Entry)
  | .put pod e | .replace pod e => some (pod, e)
  | .keep | .drop _ => none

theorem Ledger.get?_of_perform {l : Ledger} {d : Decision} {pod : Key} {e : Entry}
    (h : (l.perform d).get? pod = some e) : l.get? pod = some e ∨ d.entered? = some (pod, e) := by
  rw [Ledger.get?_perform] at h
  cases d with
  | keep => exact .inl h
  | put key e' =>
    by_cases hk : pod = key
    · subst hk
      right
      simpa [Decision.onEntry, Decision.entered?] using h
    · left
      simpa [Decision.onEntry, hk] using h
  | replace key e' =>
    by_cases hk : pod = key
    · subst hk
      right
      simp only [Decision.onEntry, if_true] at h
      obtain ⟨old, -, rfl⟩ := Option.map_eq_some_iff.1 h
      rfl
    · left
      simpa [Decision.onEntry, hk] using h
  | drop key =>
    by_cases hk : pod = key
    · simp [Decision.onEntry, hk] at h
    · left
      simpa [Decision.onEntry, hk] using h

namespace WorkItem

/-- The item is about a machine that may be scaled: by the profile that it carries, or by the view
if it only names the machine. -/
def scales (c : ClusterView) : WorkItem → Bool
  | .podStarted _ machine => (c.machines.get? machine).any (·.scalable)
  | item => item.profile?.any (·.scalable)

end WorkItem

namespace Reconciler

variable {c : ClusterView} {item : WorkItem} {p : Profile} {pod : Key} {e : Entry}

theorem entry_of_reserve {key : Key} (h : (reserve c p key).entered? = some (pod, e)) :
    pod = key ∧ e = .ofProfile p ∧ p.scalable = true := by
  unfold reserve at h
  split at h
  · rename_i hc
    rw [Bool.and_eq_true] at hc
    cases h
    exact ⟨rfl, rfl, hc.1⟩
  · cases h

theorem entry_of_decide (own : OwnKeys c.machines)
    (hspace : ∀ pod machine, item = .podStarted pod machine → machine.space = pod.space)
    (h : (decide c item).entered? = some (pod, e)) :
    pod = item.pod ∧ ∃ p, e = .ofProfile p ∧ p.scalable = true ∧
      (item.profile? = some p ∨ ∃ machine, c.grant? machine pod = some p) := by
  cases item with
  | observed p key =>
    obtain ⟨hpod, he, hscalable⟩ := entry_of_reserve h
    exact ⟨hpod, p, he, hscalable, .inl rfl⟩
  | podStarted key machine =>
    rw [decide_podStarted own (hspace key machine rfl)] at h
    split at h
    · rename_i p hgrant
      obtain ⟨rfl, he, hscalable⟩ := entry_of_reserve h
      exact ⟨rfl, p, he, hscalable, .inr ⟨machine, hgrant⟩⟩
    · cases h
  | boundsChanged p key =>
    simp only [decide] at h
    split at h
    · rename_i hscalable
      cases h
      exact ⟨rfl, p, rfl, hscalable, .inl rfl⟩
    · cases h
  | machinePodGone key | podGone key | scalingDisabled key => cases h

theorem entry_of_unscaled (h : item.scales c = false) : (decide c item).entered? = none := by
  cases item with
  | observed p key =>
    have hscalable : p.scalable = false := h
    simp [decide, reserve, hscalable, Decision.entered?]
  | boundsChanged p key =>
    have hscalable : p.scalable = false := h
    simp [decide, hscalable, Decision.entered?]
  | podStarted key machine =>
    simp only [decide]
    split
    · rfl
    · rename_i v hv
      have hscalable : v.scalable = false := by simpa [WorkItem.scales, hv] using h
      split
      · split
        · rename_i p hp
          have hprofile : p.scalable = false :=
            (VirtualMachine.profile_identity hp).2.trans hscalable
          simp [reserve, hprofile, Decision.entered?]
        · rfl
      · rfl
  | machinePodGone key | podGone key | scalingDisabled key => rfl

theorem puts_boundsChanged (c : ClusterView) (p : Profile) (key pod : Key) :
    (decide c (.boundsChanged p key)).puts pod = false := by
  simp only [decide]
  split <;> rfl

end Reconciler

/-! ## The pipeline -/

namespace Pipeline

/-- All that is or may become an entry goes back to a version that was seen. -/
structure Traced (seen : List VirtualMachine) (s : Pipeline) : Prop where
  tidy : s.Tidy
  mirrored : ∀ machine v, s.view.machines.get? machine = some v → v ∈ seen
  queued : ∀ item ∈ s.queue, ∀ p, item.profile? = some p → p.scalable = true →
    EnteredFor seen item.pod (.ofProfile p)
  decided : ∀ item d pod e, s.decided = some (item, d) → d.entered? = some (pod, e) →
    EnteredFor seen pod e
  entered : ∀ pod e, s.ledger.get? pod = some e → EnteredFor seen pod e

variable {s : Pipeline} {seen seen' : List VirtualMachine}

theorem traced_empty : Traced [] empty := by
  refine ⟨tidy_empty, ?_, ?_, ?_, ?_⟩
  · intro machine v hv
    cases hv
  · intro item hi
    cases hi
  · intro item d pod e hd
    cases hd
  · intro pod e he
    cases he

theorem Traced.pods (h : Traced seen s) (c : Call Pod) : Traced seen (s.podCall c) := by
  refine ⟨h.tidy.after (.pods c), ?_, ?_, ?_, ?_⟩
  · rw [podCall_machines]
    exact h.mirrored
  · intro item hi p hp hscalable
    rw [podCall_queue, List.mem_append] at hi
    rcases hi with hi | hi
    · exact h.queued item hi p hp hscalable
    · rw [Pod.profile_of_mem_work hi] at hp
      cases hp
  · intro item d pod e hd
    exact h.decided item d pod e ((seePod_decided c s).symm.trans hd)
  · intro pod e he
    apply h.entered
    rw [← seePod_ledger c s]
    exact he

theorem Traced.machines {c : Call VirtualMachine} (h : Traced seen s) (hseen : seen ⊆ seen')
    (hnew : ∀ v, c.result = some v → v ∈ seen') : Traced seen' (s.machineCall c) := by
  refine ⟨h.tidy.after (.machines c), ?_, ?_, ?_, ?_⟩
  · intro machine v hv
    rw [get?_machineCall] at hv
    split at hv
    · exact hnew v hv
    · exact hseen (h.mirrored machine v hv)
  · intro item hi p hp hscalable
    rw [machineCall_queue, List.mem_append] at hi
    rcases hi with hi | hi
    · exact (h.queued item hi p hp hscalable).mono hseen
    · obtain ⟨v, hv, hgrant⟩ := VirtualMachine.grant_of_mem_work hi hp hscalable
      exact ⟨v, p, hnew v hv, hgrant, rfl⟩
  · intro item d pod e hd he
    have hbefore : s.decided = some (item, d) := by
      cases c <;> exact hd
    exact (h.decided item d pod e hbefore he).mono hseen
  · intro pod e he
    have hbefore : s.ledger.get? pod = some e := by
      cases c <;> exact he
    exact (h.entered pod e hbefore).mono hseen

theorem Traced.entry_of_decide (h : Traced seen s) {item : WorkItem} (hi : item ∈ s.queue)
    {pod : Key} {e : Entry} (he : (Reconciler.decide s.view item).entered? = some (pod, e)) :
    EnteredFor seen pod e := by
  have hspace : ∀ pod machine, item = .podStarted pod machine → machine.space = pod.space := by
    rintro pod machine rfl
    exact h.tidy.inSpace pod machine hi
  obtain ⟨rfl, p, rfl, hscalable, hp | ⟨machine, hgrant⟩⟩ :=
    Reconciler.entry_of_decide h.tidy.ownKeys hspace he
  · exact h.queued item hi p hp hscalable
  · obtain ⟨v, hv, hvgrant⟩ := ClusterView.grant?_eq_some.1 hgrant
    exact ⟨v, p, h.mirrored machine v hv, hvgrant, rfl⟩

theorem Traced.decideNext (h : Traced seen s) : Traced seen s.decideNext := by
  rcases s.decideNext_cases with hsame | ⟨item, rest, -, hq, hnext⟩
  · rw [hsame]
    exact h
  · have hi : item ∈ s.queue := hq ▸ List.mem_cons_self ..
    refine ⟨h.tidy.after .decide, ?_, ?_, ?_, ?_⟩
    · rw [decideNext_view]
      exact h.mirrored
    · intro other ho
      exact h.queued other (decideNext_queue_subset ho)
    · intro taken d pod e hd he
      rw [hnext] at hd
      obtain ⟨-, rfl⟩ := Prod.mk.inj (Option.some.inj hd)
      exact h.entry_of_decide hi he
    · rw [hnext]
      exact h.entered

theorem Traced.write (h : Traced seen s) : Traced seen s.write := by
  cases hd : s.decided with
  | none =>
    rw [write_of_idle hd]
    exact h
  | some taken =>
    obtain ⟨item, d⟩ := taken
    have hwrite := write_of_decided hd
    refine ⟨h.tidy.after .write, ?_, ?_, ?_, ?_⟩
    · rw [write_view]
      exact h.mirrored
    · rw [write_queue]
      exact h.queued
    · intro other d' pod e hnone
      rw [hwrite] at hnone
      cases hnone
    · intro pod e he
      rw [hwrite] at he
      rcases Ledger.get?_of_perform he with hbefore | hentered
      · exact h.entered pod e hbefore
      · exact h.decided item d pod e hd hentered

theorem Traced.after (h : Traced seen s) (e : Event) :
    Traced (seen ++ e.machineSeen?.toList) (s.after e) := by
  cases e with
  | machines c =>
    apply h.machines (List.subset_append_left _ _)
    intro v hv
    exact List.mem_append_right _ (Option.mem_toList.2 hv)
  | pods c =>
    simp only [Event.machineSeen?, Option.toList_none, List.append_nil]
    exact h.pods c
  | decide =>
    simp only [Event.machineSeen?, Option.toList_none, List.append_nil]
    exact h.decideNext
  | write =>
    simp only [Event.machineSeen?, Option.toList_none, List.append_nil]
    exact h.write

theorem traced_foldl (events : List Event) :
    Traced (events.filterMap Event.machineSeen?) (events.foldl after empty) := by
  induction events using List.reverseRecOn with
  | nil => exact traced_empty
  | append_singleton events e ih =>
    rw [machinesSeen_append, List.foldl_append]
    exact ih.after e

/-- Every entry is made from a version that was seen, may be scaled and names the entry's pod in
its own namespace. A change of bounds adds no entry, and what is about no machine that may be
scaled enters nothing. -/
theorem entries_of_seen_versions (events : List Event) :
    (∀ pod e, (events.foldl after empty).ledger.get? pod = some e →
      ∃ v p, v ∈ events.filterMap Event.machineSeen? ∧ v.scalable = true ∧
        v.metadata.key.space = pod.space ∧ v.podName? = some pod.name ∧
        v.profile = .ok p ∧ e = .ofProfile p ∧ e.machine = v.metadata.key) ∧
    (∀ c l p key pod, ((Ledger.apply c l (.boundsChanged p key)).get? pod).isSome =
      (l.get? pod).isSome) ∧
    (∀ c l item, item.scales c = false → ∀ pod e, (Ledger.apply c l item).get? pod = some e →
      l.get? pod = some e) := by
  refine ⟨?_, ?_, ?_⟩
  · intro pod e he
    obtain ⟨v, p, hv, hgrant, rfl⟩ := (traced_foldl events).entered pod e he
    obtain ⟨hp, hpod, hscalable⟩ := VirtualMachine.grant?_eq_some.1 hgrant
    obtain ⟨hname, hspace⟩ := VirtualMachine.pod?_eq_some.1 hpod
    obtain ⟨hkey, hsame⟩ := VirtualMachine.profile_identity hp
    exact ⟨v, p, hv, hsame.symm.trans hscalable, hspace, hname, hp, rfl, hkey⟩
  · intro c l p key pod
    have hdrops : (WorkItem.boundsChanged p key).drops pod = false := rfl
    rw [Ledger.apply, Ledger.get?_perform, Reconciler.isSome_onEntry, hdrops,
      Reconciler.puts_boundsChanged, Bool.or_false, Bool.not_false, Bool.true_and]
  · intro c l item hunscaled pod e he
    rcases Ledger.get?_of_perform he with hbefore | hentered
    · exact hbefore
    · rw [Reconciler.entry_of_unscaled hunscaled] at hentered
      cases hentered

def overtaken : List Event :=
  [.pods (.add (.sample "a" "1" "Running")), .machines (.add (.sample "vm" "a")),
   .machines (.update (.sample "vm" "a") (.sample "vm" "b")), .decide, .write, .decide, .write]

theorem entry_of_overtaken_version :
    ∃ v p e, (overtaken.foldl after empty).ledger.get? ⟨"default", "a"⟩ = some e ∧
      v ∈ overtaken.filterMap Event.machineSeen? ∧ v.podName? = some "a" ∧
      v.profile = .ok p ∧ e = .ofProfile p ∧
      ((overtaken.foldl after empty).view.machines.get? e.machine).bind (·.podName?) =
        some "b" := by
  obtain ⟨e, he⟩ : ∃ e, (overtaken.foldl after empty).ledger.get? ⟨"default", "a"⟩ = some e :=
    ⟨_, rfl⟩
  obtain ⟨v, p, hv, -, -, hname, hp, hentry, -⟩ :=
    (entries_of_seen_versions overtaken).1 ⟨"default", "a"⟩ e he
  refine ⟨v, p, e, he, hv, hname, hp, hentry, ?_⟩
  cases he
  rfl

end Pipeline

end BufferLedger
