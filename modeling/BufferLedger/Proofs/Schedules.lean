import BufferLedger.Proofs.Revocation
import BufferLedger.Proofs.StandingReservation

/-!
# The reconciler may work when it likes

A schedule puts steps of the reconciler between changes of pods and machines. If the changes
follow the rules of `Regular`, which speak of the view alone, every schedule of them is a run, and
it ends in the same view (`Run.scheduled`). Once all is done its entries can be read off that view:
they are those of the live pods that are granted a reservation (`entries_of_any_schedule`). That
no granted pod is without one holds of all runs; that no other pod has one is because here a grant
ends only by an update that is noticed.
-/

namespace BufferLedger

namespace Pipeline

def Event.reports : Event → Bool
  | .pods _ | .machines _ => true
  | .decide | .write => false

/-- Calls fit the view, as in `Expects`. Pods stay completed, machines are readable and stay where
they run, and no machine is deleted. -/
def Regular (s : Pipeline) : Event → Prop
  | .pods (.add p) => s.view.pods.get? p.metadata.key = none
  | .pods (.update old new) =>
    s.view.pods.get? new.metadata.key = some old ∧ (old.completed = true → new.completed = true)
  | .pods (.delete p _) =>
    ∀ q, s.view.pods.get? p.metadata.key = some q → p.completed = q.completed
  | .machines (.add v) =>
    s.view.machines.get? v.metadata.key = none ∧ ∃ p, v.profile = .ok p
  | .machines (.update old new) =>
    s.view.machines.get? new.metadata.key = some old ∧ (∃ p, new.profile = .ok p) ∧
      ∀ pod, old.pod? = some pod → new.pod? = some pod
  | .machines (.delete ..) => False
  | .decide | .write => True

/-- No two of the machines ever run on the same pod, and the versions of the pod name the one
that does. -/
structure Paired (events : List Event) : Prop where
  alone : ∀ v ∈ events.filterMap Event.machineSeen?, ∀ w ∈ events.filterMap Event.machineSeen?,
    ∀ pod, v.pod? = some pod → w.pod? = some pod → v.metadata.key = w.metadata.key
  labelled : ∀ x ∈ events.filterMap Event.podSeen?, ∀ v ∈ events.filterMap Event.machineSeen?,
    v.pod? = some x.metadata.key → x.machine? = some v.metadata.key

variable {s t : Pipeline} {e : Event} {machine pod : Key} {changes events : List Event}

/-! ## Schedules -/

theorem seen_of_not_reports (h : e.reports = false) :
    e.machineSeen? = none ∧ e.podSeen? = none := by
  cases e with
  | pods c | machines c => cases h
  | decide | write => exact ⟨rfl, rfl⟩

theorem after_view_of_not_reports (h : e.reports = false) : (s.after e).view = s.view := by
  cases e with
  | pods c | machines c => cases h
  | decide => exact s.decideNext_view
  | write => exact s.write_view

theorem after_view_congr (h : s.view = t.view) (e : Event) :
    (s.after e).view = (t.after e).view := by
  cases e with
  | pods c => cases c <;> simp [after, podCall, seePod, setPod, unsetPod, submit, h]
  | machines c =>
    cases c <;> simp [after, machineCall, seeMachine, setMachine, unsetMachine, submit, h]
  | decide => rw [after, after, decideNext_view, decideNext_view, h]
  | write => rw [after, after, write_view, write_view, h]

theorem regular_of_not_reports (h : e.reports = false) : s.Regular e := by
  cases e with
  | pods c | machines c => cases h
  | decide | write => trivial

theorem Regular.congr (h : s.view = t.view) (regular : s.Regular e) : t.Regular e := by
  unfold Regular at regular ⊢
  rwa [h] at regular

theorem Run.scheduled (run : Run Regular changes s)
    (schedule : events.filter Event.reports = changes) :
    Run Regular events (events.foldl after .empty) ∧
      (events.foldl after .empty).view = s.view := by
  -- The rules speak of the view alone, and the reconciler's steps leave it as it is.
  induction events using List.reverseRecOn generalizing changes s with
  | nil =>
    subst schedule
    exact ⟨.start, run.state ▸ rfl⟩
  | append_singleton events e ih =>
    rw [List.foldl_append]
    cases he : e.reports with
    | true =>
      obtain rfl : events.filter Event.reports ++ [e] = changes := by
        simpa [List.filter_append, he] using schedule
      obtain ⟨t, ht, regular, rfl⟩ := run.last
      obtain ⟨hrun, hview⟩ := ih ht rfl
      exact ⟨hrun.step (regular.congr hview.symm), after_view_congr hview e⟩
    | false =>
      obtain ⟨hrun, hview⟩ := ih run (by simpa [List.filter_append, he] using schedule)
      exact ⟨hrun.step (regular_of_not_reports he), (after_view_of_not_reports he).trans hview⟩

theorem filterMap_of_schedule {β : Type} {f : Event → Option β}
    (hf : ∀ e : Event, e.reports = false → f e = none)
    (schedule : events.filter Event.reports = changes) :
    events.filterMap f = changes.filterMap f := by
  subst schedule
  rw [List.filterMap_filter]
  refine congrArg (fun g => events.filterMap g) (funext fun e => ?_)
  cases he : e.reports with
  | true => rfl
  | false => exact hf e he

theorem Paired.of_schedule (paired : Paired changes)
    (schedule : events.filter Event.reports = changes) : Paired events := by
  have hmachines := filterMap_of_schedule (fun e he => (seen_of_not_reports he).1) schedule
  have hpods := filterMap_of_schedule (fun e he => (seen_of_not_reports he).2) schedule
  refine ⟨?_, ?_⟩
  · rw [hmachines]
    exact paired.alone
  · rw [hpods, hmachines]
    exact paired.labelled

/-! ## Regular events -/

theorem Regular.expects (regular : s.Regular e) : s.Expects e := by
  cases e with
  | pods c =>
    cases c with
    | add p | delete p stale => exact regular
    | update old new => exact regular.1
  | machines c | decide | write => trivial

theorem Regular.known (regular : s.Regular e) : UpdatesKnown s e := by
  cases e with
  | pods c =>
    cases c with
    | add p | delete p stale => trivial
    | update old new => exact regular.1
  | machines c =>
    cases c with
    | add v | delete v stale => trivial
    | update old new => exact regular.1
  | decide | write => trivial

theorem Regular.readable {v : VirtualMachine} (regular : s.Regular e)
    (hv : e.machineSeen? = some v) : ∃ p, v.profile = .ok p := by
  cases e with
  | machines c =>
    cases c with
    | add w =>
      cases hv
      exact regular.2
    | update old new =>
      cases hv
      exact regular.2.1
    | delete w stale => cases hv
  | pods c | decide | write => cases hv

theorem Regular.attends {v : VirtualMachine} (regular : s.Regular e) (he : e ∈ events)
    (paired : Paired events) (hv : v ∈ events.filterMap Event.machineSeen?)
    (hpod : v.pod? = some pod) : Attends v.metadata.key pod s e := by
  refine ⟨⟨regular.known, ?_⟩, fun w hw _ => regular.readable hw, ?_, ?_⟩
  · intro w hw hwpod
    exact paired.alone w (List.mem_filterMap.2 ⟨e, he, hw⟩) v hv pod hwpod hpod
  · intro x hx hkey
    have hx' := List.mem_filterMap.2 ⟨e, he, hx⟩
    exact paired.labelled x hx' v hv (hpod.trans (congrArg some hkey.symm))
  · rintro old new rfl -
    exact regular.2

theorem Run.seen {allows : Pipeline → Event → Prop} (run : Run allows events s)
    {v : VirtualMachine} (hv : s.view.machines.get? machine = some v) :
    v ∈ events.filterMap Event.machineSeen? := by
  induction run with
  | start => cases hv
  | @step events s e _ _ ih =>
    rw [List.filterMap_append, List.mem_append]
    cases e with
    | machines c =>
      rw [after, get?_machineCall] at hv
      split at hv
      · exact .inr (by simp [Event.machineSeen?, hv])
      · exact .inl (ih hv)
    | pods c | decide | write =>
      rw [machines_after fun c => Event.noConfusion] at hv
      exact .inl (ih hv)

/-! ## Grants that end -/

theorem Regular.ungranted_or_revokes (regular : s.Regular e)
    (hafter : (s.after e).view.Ungranted pod) : s.view.Ungranted pod ∨ e.Revokes pod := by
  by_cases hbefore : s.view.Ungranted pod
  · exact .inl hbefore
  right
  obtain ⟨machine, hgrant⟩ := not_forall.1 hbefore
  obtain ⟨p, hp⟩ := Option.ne_none_iff_exists'.1 hgrant
  obtain ⟨v, hv, hvgrant⟩ := ClusterView.grant?_eq_some.1 hp
  have hlost := hafter machine
  -- No machine is added twice or deleted, so the grant ended by an update of its machine.
  cases e with
  | machines c =>
    rw [after, ClusterView.grant?, get?_machineCall] at hlost
    by_cases hk : machine = c.key
    · subst hk
      rw [if_pos rfl] at hlost
      cases c with
      | add w =>
        have habsent : s.view.machines.get? (Call.add w).key = none := regular.1
        rw [habsent] at hv
        cases hv
      | update old new =>
        obtain ⟨hold, ⟨now, hnow⟩, hstays⟩ := regular
        obtain rfl : old = v := Option.some.inj (hold.symm.trans hv)
        obtain ⟨hread, hpod, hscalable⟩ := VirtualMachine.grant?_eq_some.1 hvgrant
        have hungranted : new.grant? pod = none := hlost
        refine ⟨⟨p, hread, hscalable⟩, hstays pod hpod, now, hnow, ?_⟩
        rw [Bool.eq_false_iff]
        intro hs
        exact (VirtualMachine.grant?_eq_none hnow).1 hungranted ⟨hstays pod hpod, hs⟩
      | delete w stale => cases regular
    · rw [if_neg hk] at hlost
      exact absurd hlost hgrant
  | pods c | decide | write =>
    rw [ClusterView.grant?, machines_after fun c => Event.noConfusion] at hlost
    exact absurd hlost hgrant

theorem Run.holds_of_ungranted (run : Run Regular events s) (h : s.view.Ungranted pod) :
    s.holds (fun item => item.observes pod) pod = false := by
  induction run with
  | start => rfl
  | @step events s e run regular ih =>
    rcases regular.ungranted_or_revokes h with hbefore | hrevokes
    · exact holds_after run.tidy hbefore h (ih hbefore)
    · exact holds_of_revokes hrevokes

theorem Run.granted_of_entry (run : Run Regular events s) (hqueue : s.queue = [])
    (hidle : s.decided = none) (hentry : (s.ledger.get? pod).isSome) :
    ∃ key v, s.view.machines.get? key = some v ∧ v.pod? = some pod ∧ v.scalable = true := by
  have hgranted : ¬ s.view.Ungranted pod := by
    intro h
    have hholds := run.holds_of_ungranted h
    rw [holds_of_drained _ hqueue hidle, hentry] at hholds
    cases hholds
  obtain ⟨key, hgrant⟩ := not_forall.1 hgranted
  obtain ⟨p, hp⟩ := Option.ne_none_iff_exists'.1 hgrant
  obtain ⟨v, hv, hvgrant⟩ := ClusterView.grant?_eq_some.1 hp
  obtain ⟨hread, hpod, hscalable⟩ := VirtualMachine.grant?_eq_some.1 hvgrant
  exact ⟨key, v, hv, hpod, (VirtualMachine.profile_identity hread).2.symm.trans hscalable⟩

/-- Once all is done, at whatever times, the pods with an entry are the live ones that have a
machine that may be scaled in the view that the changes make. -/
theorem entries_of_any_schedule (run : Run Regular changes s) (paired : Paired changes)
    (schedule : events.filter Event.reports = changes)
    (hqueue : (events.foldl after .empty).queue = [])
    (hidle : (events.foldl after .empty).decided = none) :
    (events.foldl after .empty).view = s.view ∧
      ∀ pod, ((events.foldl after .empty).ledger.get? pod).isSome ↔
        ∃ x key v, s.view.pods.get? pod = some x ∧ x.completed = false ∧
          s.view.machines.get? key = some v ∧ v.pod? = some pod ∧ v.scalable = true := by
  obtain ⟨hrun, hview⟩ := run.scheduled schedule
  refine ⟨hview, ?_⟩
  intro pod
  rw [← hview]
  constructor
  · intro hentry
    have hlive := backed_of_owed (hrun.mono fun t e _ regular => regular.expects) pod (.inl hentry)
    obtain ⟨x, hx, hrunning⟩ := podIsLive_iff.1 (hlive.live_of_drained hqueue hidle)
    obtain ⟨key, v, hv, hpod, hscalable⟩ := hrun.granted_of_entry hqueue hidle hentry
    exact ⟨x, key, v, hx, hrunning, hv, hpod, hscalable⟩
  · rintro ⟨x, key, v, hx, hrunning, hv, hpod, hscalable⟩
    have own := hrun.tidy.ownKeys key v hv
    have hattends : Run (Attends key pod) events (events.foldl after .empty) := by
      refine hrun.mono fun t e he regular => ?_
      exact own ▸ regular.attends he (paired.of_schedule schedule) (hrun.seen hv) hpod
    obtain ⟨-, e, -, hledger, -⟩ := hattends.entry hqueue hidle hx hrunning hv hpod hscalable
    rw [hledger]
    rfl

def lateScaling : List Event :=
  [.pods (.add (.sample "a" "1" "Running")), .machines (.add sampleMachine.unscaled),
   .machines (.update sampleMachine.unscaled sampleMachine)]

def lateScalingEagerly : List Event :=
  [.pods (.add (.sample "a" "1" "Running")), .decide, .write,
   .machines (.add sampleMachine.unscaled),
   .machines (.update sampleMachine.unscaled sampleMachine), .decide, .write]

def lateScalingAtOnce : List Event :=
  lateScaling ++ [.decide, .write, .decide, .write]

theorem paired_lateScaling : Paired lateScaling := by
  have hkeys : ∀ v ∈ lateScaling.filterMap Event.machineSeen?,
      v.metadata.key = ⟨"default", "vm"⟩ := by
    intro v hv
    simp only [lateScaling, List.filterMap_cons, Event.machineSeen?, Call.result,
      List.filterMap_nil, List.mem_cons, List.not_mem_nil, or_false] at hv
    rcases hv with rfl | rfl <;> rfl
  refine ⟨fun v hv w hw _ _ _ => (hkeys v hv).trans (hkeys w hw).symm, ?_⟩
  intro x hx v hv _
  obtain rfl : x = .sample "a" "1" "Running" := List.mem_singleton.1 hx
  rw [hkeys v hv]
  rfl

theorem late_scaling_entries :
    Run Regular lateScaling (lateScaling.foldl after .empty) ∧ Paired lateScaling ∧
      lateScalingEagerly.filter Event.reports = lateScaling ∧
      ((lateScalingEagerly.foldl after .empty).ledger.get? ⟨"default", "a"⟩).isSome ∧
      lateScalingAtOnce.filter Event.reports = lateScaling ∧
      ((lateScalingAtOnce.foldl after .empty).ledger.get? ⟨"default", "a"⟩).isSome := by
  have allowed : Allowed Regular .empty lateScaling := by
    refine ⟨rfl, ⟨rfl, _, rfl⟩, ⟨rfl, ⟨_, rfl⟩, ?_⟩, trivial⟩
    exact fun pod hpod => hpod
  have run := Run.start.follow allowed
  have hentry : ∃ x key v,
      (lateScaling.foldl after .empty).view.pods.get? ⟨"default", "a"⟩ = some x ∧
        x.completed = false ∧
        (lateScaling.foldl after .empty).view.machines.get? key = some v ∧
        v.pod? = some ⟨"default", "a"⟩ ∧ v.scalable = true :=
    ⟨.sample "a" "1" "Running", ⟨"default", "vm"⟩, sampleMachine, rfl, rfl, rfl, rfl, rfl⟩
  have eagerly : lateScalingEagerly.filter Event.reports = lateScaling := rfl
  have atOnce : lateScalingAtOnce.filter Event.reports = lateScaling := rfl
  have heagerly := entries_of_any_schedule run paired_lateScaling eagerly rfl rfl
  have hatOnce := entries_of_any_schedule run paired_lateScaling atOnce rfl rfl
  exact ⟨run, paired_lateScaling, eagerly, (heagerly.2 _).2 hentry, atOnce,
    (hatOnce.2 _).2 hentry⟩

end Pipeline

end BufferLedger
