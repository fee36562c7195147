import BufferLedger.Proofs.Grant

/-!
# Reservations are made and kept current

A pod and the machine that alone runs on it. Whenever the pod is live and the mirrored machine
grants it a reservation, the outlook for the pod is an entry in the machine's present range
(`Upheld`). An event that first makes both true also asks for the entry, after all that the queue
still holds; while both stay true no event asks to drop it, and one that changes the range asks to
replace it. So once all is done the ledger has such an entry (`reserved_in_current_range`).
-/

namespace BufferLedger

namespace Pipeline

/-- What is asked of the events for a pod and its machine: no other machine runs on the pod, the
machine's versions are readable, the pod's versions name it, and no update undoes the pod's end. -/
structure Attends (machine pod : Key) (s : Pipeline) (e : Event) : Prop
    extends RunsAlone machine pod s e where
  readable : ∀ v, e.machineSeen? = some v → v.metadata.key = machine → ∃ p, v.profile = .ok p
  labelled : ∀ x, e.podSeen? = some x → x.metadata.key = pod → x.machine? = some machine
  final : ∀ old new, e = .pods (.update old new) → new.metadata.key = pod →
    old.completed = true → new.completed = true

def Tells (seen : List VirtualMachine) (machine : Key) (now : Profile) (e : Entry) : Prop :=
  ∃ v p, v ∈ seen ∧ v.metadata.key = machine ∧ v.profile = .ok p ∧ e = .ofProfile p ∧
    p.sameRange now = true

theorem Tells.of_mem {seen : List VirtualMachine} {machine : Key} {v : VirtualMachine}
    {now : Profile} (hv : v ∈ seen) (hkey : v.metadata.key = machine)
    (hprofile : v.profile = .ok now) : Tells seen machine now (.ofProfile now) :=
  ⟨v, now, hv, hkey, hprofile, rfl, now.sameRange_refl⟩

theorem Tells.mono {seen seen' : List VirtualMachine} {machine : Key} {before now : Profile}
    {e : Entry} (h : Tells seen machine before e) (hseen : seen ⊆ seen')
    (hrange : before.sameRange now = true) : Tells seen' machine now e := by
  obtain ⟨v, p, hv, hkey, hprofile, he, hp⟩ := h
  exact ⟨v, p, hseen hv, hkey, hprofile, he, Profile.sameRange_trans hp hrange⟩

/-- The invariant, for what has been seen of the machines so far. -/
structure Upheld (machine pod : Key) (seen : List VirtualMachine) (s : Pipeline) : Prop where
  tidy : s.Tidy
  mirrored : ∀ v, s.view.machines.get? machine = some v → v ∈ seen ∧ ∃ p, v.profile = .ok p
  started : ∀ other, .podStarted pod other ∈ s.queue → other = machine
  reserved : ∀ now, s.view.podIsLive pod = true → s.view.grant? machine pod = some now →
    ∃ e, s.outlook s.view pod = some e ∧ Tells seen machine now e

end Pipeline

/-! ## The queue in two views -/

namespace Reconciler

variable {c c' : ClusterView} {machine pod : Key} {before now : Profile}

theorem space_of_grant (own : OwnKeys c.machines) (h : c.grant? machine pod = some now) :
    machine.space = pod.space := by
  obtain ⟨v, hv, hgrant⟩ := ClusterView.grant?_eq_some.1 h
  have hpod := (VirtualMachine.grant?_eq_some.1 hgrant).2.1
  rw [← own machine v hv]
  exact (VirtualMachine.pod?_eq_some.1 hpod).2

theorem decide_podStarted_of_grant (own : OwnKeys c.machines) (hlive : c.podIsLive pod = true)
    (h : c.grant? machine pod = some now) :
    decide c (.podStarted pod machine) = .put pod (.ofProfile now) := by
  obtain ⟨v, -, hv⟩ := ClusterView.grant?_eq_some.1 h
  have hscalable := (VirtualMachine.grant?_eq_some.1 hv).2.2
  rw [decide_podStarted own (space_of_grant own h), h]
  exact reserve_of_live hlive hscalable

def Regranted (now : Profile) : Option Entry → Option Entry → Prop :=
  Option.Rel fun e e' => e' = e ∨ e' = .ofProfile now

theorem regranted_refl (now : Profile) (old : Option Entry) : Regranted now old old := by
  cases old with
  | none => exact .none
  | some e => exact .some (.inl rfl)

theorem onEntry_regrant (own : OwnKeys c.machines) (own' : OwnKeys c'.machines)
    (hlive : c.podIsLive pod = true) (hlive' : c'.podIsLive pod = true)
    (h : c.grant? machine pod = some before) (h' : c'.grant? machine pod = some now)
    {item : WorkItem} (hstarted : ∀ other, item = .podStarted pod other → other = machine)
    {old old' : Option Entry} (hold : Regranted now old old') :
    Regranted now ((decide c item).onEntry pod old) ((decide c' item).onEntry pod old') := by
  by_cases hpod : item.pod = pod
  · subst hpod
    cases item with
    | machinePodGone key | podGone key | scalingDisabled key =>
      simpa [decide, Decision.onEntry, WorkItem.pod] using regranted_refl now none
    | boundsChanged p key =>
      simp only [decide]
      split
      · cases hold with
        | none => simpa [Decision.onEntry, WorkItem.pod] using regranted_refl now none
        | some he =>
          simpa [Decision.onEntry, WorkItem.pod] using regranted_refl now (some (.ofProfile p))
      · exact hold
    | observed p key =>
      simp only [WorkItem.pod] at hlive hlive'
      simp only [decide, reserve, hlive, hlive', Bool.and_true]
      split
      · simpa [Decision.onEntry, WorkItem.pod] using regranted_refl now (some (.ofProfile p))
      · exact hold
    | podStarted key other =>
      obtain rfl := hstarted other rfl
      rw [WorkItem.pod] at *
      rw [decide_podStarted_of_grant own hlive h, decide_podStarted_of_grant own' hlive' h']
      simp [Decision.onEntry, Regranted]
  · rwa [onEntry_decide_of_ne hpod, onEntry_decide_of_ne hpod]

theorem settle_regrant (own : OwnKeys c.machines) (own' : OwnKeys c'.machines)
    (hlive : c.podIsLive pod = true) (hlive' : c'.podIsLive pod = true)
    (h : c.grant? machine pod = some before) (h' : c'.grant? machine pod = some now)
    {items : List WorkItem} (hstarted : ∀ other, .podStarted pod other ∈ items → other = machine)
    {old old' : Option Entry} (hold : Regranted now old old') :
    Regranted now (settle c pod items old) (settle c' pod items old') := by
  induction items generalizing old old' with
  | nil => exact hold
  | cons item items ih =>
    have hitem := onEntry_regrant own own' hlive hlive' h h'
      (fun other ho => hstarted other (ho ▸ List.mem_cons_self ..)) hold
    exact ih (fun other ho => hstarted other (List.mem_cons_of_mem _ ho)) hitem

theorem settle_boundsChanged (hscalable : now.scalable = true) (e : Entry) :
    settle c pod [.boundsChanged now pod] (some e) = some (.ofProfile now) := by
  simp [settle, decide, Decision.onEntry, hscalable]

theorem settle_started (own : OwnKeys c.machines) (hlive : c.podIsLive pod = true)
    (h : c.grant? machine pod = some now) (old : Option Entry) :
    settle c pod [.podStarted pod machine] old = some (.ofProfile now) := by
  simp [settle, decide_podStarted_of_grant own hlive h, Decision.onEntry]

end Reconciler

namespace Pipeline

open Reconciler

variable {machine pod : Key} {seen seen' : List VirtualMachine} {s : Pipeline}

/-! ## Events -/

theorem Upheld.carried (h : Upheld machine pod seen s) {c : ClusterView} {before now : Profile}
    (own : OwnKeys c.machines) (hlive : s.view.podIsLive pod = true)
    (hbefore : s.view.grant? machine pod = some before) (hlive' : c.podIsLive pod = true)
    (hnow : c.grant? machine pod = some now) :
    ∃ e, s.outlook c pod = some e ∧ (Tells seen machine before e ∨ e = .ofProfile now) := by
  obtain ⟨e, hout, he⟩ := h.reserved before hlive hbefore
  have hrel : Regranted now (s.outlook s.view pod) (s.outlook c pod) :=
    settle_regrant h.tidy.ownKeys own hlive hlive' hbefore hnow h.started (regranted_refl now _)
  rw [hout] at hrel
  generalize s.outlook c pod = r at hrel
  cases hrel with
  | some hor =>
    rcases hor with rfl | rfl
    · exact ⟨_, rfl, .inl he⟩
    · exact ⟨_, rfl, .inr rfl⟩

theorem Upheld.kept (h : Upheld machine pod seen s) {c : ClusterView} {now : Profile}
    {items : List WorkItem} (own : OwnKeys c.machines) (hwas : s.view.podIsLive pod = true)
    (hgranted : s.view.grant? machine pod = some now) (hlive : c.podIsLive pod = true)
    (hnow : c.grant? machine pod = some now) (hseen : seen ⊆ seen')
    (htells : Tells seen' machine now (.ofProfile now)) (hothers : ∀ item ∈ items, item.pod ≠ pod) :
    ∃ e, settle c pod items (s.outlook c pod) = some e ∧ Tells seen' machine now e := by
  obtain ⟨e, hout, he⟩ := h.carried own hwas hgranted hlive hnow
  refine ⟨e, by rw [settle_of_others hothers, hout], ?_⟩
  rcases he with he | rfl
  · exact he.mono hseen now.sameRange_refl
  · exact htells

theorem Upheld.updated (h : Upheld machine pod seen s) {c : ClusterView} {old new : VirtualMachine}
    {now : Profile} (own : OwnKeys c.machines) (hold : s.view.machines.get? machine = some old)
    (hnew : c.machines.get? machine = some new) (hgrant : new.grant? pod = some now)
    (hwas : s.view.podIsLive pod = true) (hlive : c.podIsLive pod = true) (hseen : seen ⊆ seen')
    (htells : Tells seen' machine now (.ofProfile now)) :
    ∃ e, settle c pod (VirtualMachine.workOfUpdate old new) (s.outlook c pod) = some e ∧
      Tells seen' machine now e := by
  obtain ⟨-, -, hscalable⟩ := VirtualMachine.grant?_eq_some.1 hgrant
  have hkeys : old.metadata.key = new.metadata.key :=
    (h.tidy.ownKeys machine old hold).trans (own machine new hnew).symm
  cases hbefore : old.grant? pod with
  | none =>
    obtain ⟨-, before, hread⟩ := h.mirrored old hold
    have hwork := VirtualMachine.workOfUpdate_of_new_grant hread hbefore hgrant
      (congrArg Key.space hkeys)
    exact ⟨_, hwork ▸ settle_observed hlive hscalable _, htells⟩
  | some before =>
    have hgranted : s.view.grant? machine pod = some before :=
      ClusterView.grant?_eq_some.2 ⟨old, hold, hbefore⟩
    obtain ⟨e, hout, he⟩ := h.carried own hwas hgranted hlive
      (ClusterView.grant?_eq_some.2 ⟨new, hnew, hgrant⟩)
    rw [VirtualMachine.workOfUpdate_of_grants hbefore hgrant, hout]
    split
    · rename_i hrange
      refine ⟨e, rfl, ?_⟩
      rcases he with he | rfl
      · exact he.mono hseen hrange
      · exact htells
    · exact ⟨.ofProfile now, settle_boundsChanged hscalable e, htells⟩

theorem Upheld.told {call : Call VirtualMachine} {c : ClusterView} {v : VirtualMachine}
    {now : Profile} (h : Upheld machine pod seen s) (known : UpdatesKnown s (.machines call))
    (own : OwnKeys c.machines) (hk : call.key = machine) (hresult : call.result = some v)
    (hv : c.machines.get? machine = some v) (hgrant : v.grant? pod = some now)
    (hwas : s.view.podIsLive pod = true) (hlive : c.podIsLive pod = true) (hseen : seen ⊆ seen')
    (htells : Tells seen' machine now (.ofProfile now)) :
    ∃ e, settle c pod (VirtualMachine.work call) (s.outlook c pod) = some e ∧
      Tells seen' machine now e := by
  subst hk
  obtain ⟨-, -, hscalable⟩ := VirtualMachine.grant?_eq_some.1 hgrant
  cases call with
  | add w =>
    obtain rfl : w = v := Option.some.inj hresult
    have hwork : VirtualMachine.work (.add w) = [.observed now pod] :=
      VirtualMachine.workOfAdd_of_grant hgrant
    exact ⟨_, hwork ▸ settle_observed hlive hscalable _, htells⟩
  | update old new =>
    obtain rfl : new = v := Option.some.inj hresult
    exact h.updated own known hv hgrant hwas hlive hseen htells
  | delete w stale => cases hresult

theorem Upheld.machines {c : Call VirtualMachine} (h : Upheld machine pod seen s)
    (attends : Attends machine pod s (.machines c)) (hseen : seen ⊆ seen')
    (hnew : ∀ v, c.result = some v → v ∈ seen') :
    Upheld machine pod seen' (s.machineCall c) := by
  have tidy : (s.machineCall c).Tidy := h.tidy.after (.machines c)
  have hget := get?_machineCall c s machine
  have hmirrored : ∀ v, (s.machineCall c).view.machines.get? machine = some v →
      v ∈ seen' ∧ ∃ p, v.profile = .ok p := by
    intro v hv
    have hkey := tidy.ownKeys machine v hv
    rw [hget] at hv
    split at hv
    · exact ⟨hnew v hv, attends.readable v hv hkey⟩
    · obtain ⟨hold, hread⟩ := h.mirrored v hv
      exact ⟨hseen hold, hread⟩
  refine ⟨tidy, hmirrored, ?_, ?_⟩
  · intro other hi
    rw [machineCall_queue, List.mem_append] at hi
    rcases hi with hi | hi
    · exact h.started other hi
    · exact absurd hi VirtualMachine.not_started_mem_work
  · intro now hlive hgrant
    rw [outlook_machineCall]
    obtain ⟨v, hv, hvgrant⟩ := ClusterView.grant?_eq_some.1 hgrant
    have hprofile := (VirtualMachine.grant?_eq_some.1 hvgrant).1
    have htells : Tells seen' machine now (.ofProfile now) :=
      .of_mem (hmirrored v hv).1 (tidy.ownKeys machine v hv) hprofile
    have hwas : s.view.podIsLive pod = true := by
      have hpods := machineCall_pods c s
      rwa [ClusterView.podIsLive, hpods] at hlive
    by_cases hk : machine = c.key
    · have hresult := hv
      rw [hget, if_pos hk] at hresult
      exact h.told attends.known tidy.ownKeys hk.symm hresult hv hvgrant hwas hlive hseen htells
    · have hgranted : s.view.grant? machine pod = some now := by
        rw [hget, if_neg hk] at hv
        exact ClusterView.grant?_eq_some.2 ⟨v, hv, hvgrant⟩
      refine h.kept tidy.ownKeys hwas hgranted hlive hgrant hseen htells ?_
      intro item hi hpod
      obtain ⟨w, hw, hwpod⟩ := VirtualMachine.pod_of_mem_work hi
      have hkey := attends.alone w hw (hpod ▸ hwpod)
      exact hk (hkey.symm.trans (c.key_of_result hw))

theorem Upheld.pods {c : Call Pod} (h : Upheld machine pod seen s)
    (attends : Attends machine pod s (.pods c)) : Upheld machine pod seen (s.podCall c) := by
  have tidy : (s.podCall c).Tidy := h.tidy.after (.pods c)
  have hmachines := podCall_machines c s
  have hgrants : (s.podCall c).view.grant? machine pod = s.view.grant? machine pod := by
    rw [ClusterView.grant?, hmachines, ClusterView.grant?]
  have hget := get?_podCall c s pod
  have hlabel : ∀ x, c = .add x → x.metadata.key = pod → x.machine? = some machine := by
    rintro x rfl hx
    exact attends.labelled x rfl hx
  refine ⟨tidy, hmachines ▸ h.mirrored, ?_, ?_⟩
  · intro other hi
    rw [podCall_queue, List.mem_append] at hi
    rcases hi with hi | hi
    · exact h.started other hi
    · rcases Pod.mem_work hi with ⟨hends, -⟩ | ⟨x, key, hc, -, hmachine, hi⟩
      · cases hends
      · cases hi
        exact Option.some.inj (hmachine.symm.trans (hlabel x hc rfl))
  · intro now hlive hgrant
    rw [outlook_podCall]
    have hgranted : s.view.grant? machine pod = some now := hgrants ▸ hgrant
    obtain ⟨v, hv, hvgrant⟩ := ClusterView.grant?_eq_some.1 hgranted
    have hprofile := (VirtualMachine.grant?_eq_some.1 hvgrant).1
    have htells : Tells seen machine now (.ofProfile now) :=
      .of_mem (h.mirrored v hv).1 (h.tidy.ownKeys machine v hv) hprofile
    obtain ⟨x, hx, hrunning⟩ := podIsLive_iff.1 hlive
    rw [hget] at hx
    have hkept (hwas : s.view.podIsLive pod = true)
        (hothers : ∀ item ∈ Pod.work c, item.pod ≠ pod) :=
      h.kept tidy.ownKeys hwas hgranted hlive hgrant (List.Subset.refl seen) htells hothers
    by_cases hk : pod = c.key
    · rw [if_pos hk] at hx
      cases c with
      | add y =>
        cases hx
        have hpod : x.metadata.key = pod := hk.symm
        have hwork := Pod.work_add hrunning (hlabel x rfl hpod)
        rw [hpod] at hwork
        exact ⟨_, hwork ▸ settle_started tidy.ownKeys hlive hgrant _, htells⟩
      | update old y =>
        cases hx
        have hold : s.view.pods.get? pod = some old := hk ▸ attends.known
        have hwas : old.completed = false := by
          rw [Bool.eq_false_iff]
          intro hdone
          rw [attends.final old x rfl hk.symm hdone] at hrunning
          cases hrunning
        -- An update of a pod that stays live asks for nothing.
        refine hkept (podIsLive_iff.2 ⟨old, hold, hwas⟩) ?_
        rw [Pod.work_update hwas hrunning]
        intro item hi
        cases hi
      | delete y stale => cases hx
    · rw [if_neg hk] at hx
      refine hkept (podIsLive_iff.2 ⟨x, hx, hrunning⟩) ?_
      intro item hi hpod
      exact hk (hpod.symm.trans (Pod.pod_of_mem_work hi))

theorem Upheld.after {e : Event} (h : Upheld machine pod seen s)
    (attends : Attends machine pod s e) :
    Upheld machine pod (seen ++ e.machineSeen?.toList) (s.after e) := by
  have hseen : seen ⊆ seen ++ e.machineSeen?.toList := List.subset_append_left _ _
  cases e with
  | pods c =>
    simp only [Event.machineSeen?, Option.toList_none, List.append_nil]
    exact h.pods attends
  | machines c =>
    refine h.machines attends hseen ?_
    intro v hv
    exact List.mem_append_right _ (Option.mem_toList.2 hv)
  | decide =>
    have hview := s.decideNext_view
    simp only [Event.machineSeen?, Option.toList_none, List.append_nil]
    refine ⟨h.tidy.after .decide, ?_, ?_, ?_⟩
    · exact hview ▸ h.mirrored
    · exact fun other hi => h.started other (decideNext_queue_subset hi)
    · rw [Pipeline.after, hview, outlook_decideNext]
      exact h.reserved
  | write =>
    have hview := s.write_view
    simp only [Event.machineSeen?, Option.toList_none, List.append_nil]
    refine ⟨h.tidy.after .write, ?_, ?_, ?_⟩
    · exact hview ▸ h.mirrored
    · exact fun other hi => h.started other (s.write_queue ▸ hi)
    · rw [Pipeline.after, hview, outlook_write]
      exact h.reserved

/-! ## Runs -/

theorem Run.upheld {events : List Event} (run : Run (Attends machine pod) events s) :
    Upheld machine pod (events.filterMap Event.machineSeen?) s := by
  induction run with
  | start =>
    refine ⟨tidy_empty, ?_, ?_, ?_⟩
    · rintro v ⟨⟩
    · rintro other ⟨⟩
    · rintro now ⟨⟩
  | @step events s e _ attends ih =>
    have h := ih.after attends
    rwa [machinesSeen_append]

theorem Run.entry {events : List Event} (run : Run (Attends machine pod) events s)
    (hqueue : s.queue = []) (hidle : s.decided = none) {x : Pod} {v : VirtualMachine}
    (hx : s.view.pods.get? pod = some x) (hrunning : x.completed = false)
    (hv : s.view.machines.get? machine = some v) (hpod : v.pod? = some pod)
    (hscalable : v.scalable = true) :
    ∃ now e, v.profile = .ok now ∧ s.ledger.get? pod = some e ∧
      Tells (events.filterMap Event.machineSeen?) machine now e := by
  have h := run.upheld
  obtain ⟨-, now, hnow⟩ := h.mirrored v hv
  have hnowScalable : now.scalable = true :=
    (VirtualMachine.profile_identity hnow).2.trans hscalable
  have hgrant : s.view.grant? machine pod = some now :=
    ClusterView.grant?_eq_some.2 ⟨v, hv, VirtualMachine.grant?_eq_some.2 ⟨hnow, hpod, hnowScalable⟩⟩
  obtain ⟨e, hout, htells⟩ := h.reserved now (podIsLive_iff.2 ⟨x, hx, hrunning⟩) hgrant
  rw [outlook_of_drained _ hqueue hidle] at hout
  exact ⟨now, e, hnow, hout, htells⟩

/-- Once all is done, a live pod whose machine may be scaled has an entry, made from a version of
the machine that allows the range that it allows now. -/
theorem reserved_in_current_range {events : List Event} (run : Run (Attends machine pod) events s)
    (hqueue : s.queue = []) (hidle : s.decided = none) {x : Pod} {v : VirtualMachine}
    (hx : s.view.pods.get? pod = some x) (hrunning : x.completed = false)
    (hv : s.view.machines.get? machine = some v) (hpod : v.pod? = some pod)
    (hscalable : v.scalable = true) :
    ∃ now w p, v.profile = .ok now ∧ w ∈ events.filterMap Event.machineSeen? ∧
      w.metadata.key = machine ∧ w.profile = .ok p ∧ s.ledger.get? pod = some (.ofProfile p) ∧
      p.cpu.min = now.cpu.min ∧ p.cpu.max = now.cpu.max ∧
      p.mem.min = now.mem.min ∧ p.mem.max = now.mem.max := by
  obtain ⟨now, e, hnow, hledger, w, p, hw, hkey, hp, rfl, hrange⟩ :=
    run.entry hqueue hidle hx hrunning hv hpod hscalable
  obtain ⟨⟨hcmin, hcmax⟩, hmmin, hmmax⟩ := Profile.sameRange_iff.1 hrange
  exact ⟨now, w, p, hnow, hw, hkey, hp, hledger, hcmin, hcmax, hmmin, hmmax⟩

/-! ## A run that is written out -/

theorem Attends.of_silent {e : Event} (hknown : UpdatesKnown s e) (hm : e.machineSeen? = none)
    (hp : e.podSeen? = none) : Attends machine pod s e := by
  refine ⟨.of_silent hknown hm, ?_, ?_, ?_⟩
  · intro v hv
    rw [hm] at hv
    cases hv
  · intro x hx
    rw [hp] at hx
    cases hx
  · rintro old new rfl
    cases hp

theorem Attends.of_version {c : Call VirtualMachine} {v : VirtualMachine} {p : Profile}
    (hknown : UpdatesKnown s (.machines c)) (hv : c.result = some v) (hread : v.profile = .ok p)
    (hkey : v.metadata.key = machine) : Attends machine pod s (.machines c) := by
  refine ⟨.of_version hknown hv hkey, ?_, ?_, ?_⟩
  · intro w hw _
    obtain rfl := Option.some.inj (hv.symm.trans hw)
    exact ⟨p, hread⟩
  · intro x hx
    cases hx
  · intro old new he
    cases he

theorem Attends.of_added {x : Pod} (hlabel : x.machine? = some machine) :
    Attends machine pod s (.pods (.add x)) := by
  refine ⟨.of_silent trivial rfl, ?_, ?_, ?_⟩
  · intro v hv
    cases hv
  · intro y hy _
    obtain rfl := Option.some.inj hy
    exact hlabel
  · intro old new he
    cases he

def growth : List Event :=
  [.machines (.add (.sample "vm" "a")), .decide, .write, .pods (.add (.sample "a" "1" "Running")),
   .machines (.update (.sample "vm" "a") ((VirtualMachine.sample "vm" "a").withMaxCpu "8000m")),
   .decide, .write, .decide, .write]

theorem reserved_after_growth :
    Run (Attends ⟨"default", "vm"⟩ ⟨"default", "a"⟩) growth (growth.foldl after .empty) ∧
      ∃ p, (growth.foldl after .empty).ledger.get? ⟨"default", "a"⟩ = some (.ofProfile p) ∧
        p.cpu.max = 8000 ∧
        Entry.ofProfile p = ⟨⟨"default", "vm"⟩, ⟨1000, 7000⟩, ⟨1, 3⟩⟩ := by
  have allowed : Allowed (Attends ⟨"default", "vm"⟩ ⟨"default", "a"⟩) .empty growth :=
    ⟨.of_version trivial rfl rfl rfl, .of_silent trivial rfl rfl, .of_silent trivial rfl rfl,
      .of_added rfl, .of_version rfl rfl rfl rfl, .of_silent trivial rfl rfl,
      .of_silent trivial rfl rfl, .of_silent trivial rfl rfl, .of_silent trivial rfl rfl, trivial⟩
  have run := Run.start.follow allowed
  refine ⟨run, ?_⟩
  obtain ⟨now, w, p, hnow, -, -, -, hledger, -, hmax, -⟩ :=
    reserved_in_current_range run rfl rfl (x := .sample "a" "1" "Running")
      (v := (VirtualMachine.sample "vm" "a").withMaxCpu "8000m") (by rfl) (by rfl) (by rfl) (by rfl)
      (by rfl)
  have hrange : now.cpu.max = 8000 := by
    cases hnow
    rfl
  have hread : (growth.foldl after .empty).ledger.get? ⟨"default", "a"⟩ =
      some ⟨⟨"default", "vm"⟩, ⟨1000, 7000⟩, ⟨1, 3⟩⟩ := rfl
  exact ⟨p, hledger, hmax.trans hrange, Option.some.inj (hledger.symm.trans hread)⟩

end Pipeline

end BufferLedger
