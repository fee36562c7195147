import BufferLedger.Proofs.FirstList
import BufferLedger.Proofs.Grant

/-!
# Cold start

When both watches have listed and the queue has been worked through, the entry of a pod is decided
by the two lists. The starts of pods stand first in the queue and may put any entry that a machine
grants; the machines follow in the order of their list, and the last one that grants the pod a
reservation has the last word (`Reconciler.settle_lists`).
-/

namespace BufferLedger

open ClusterObject (key)

/-- The machine is in the pod's namespace, names the pod, may be scaled and tells how. -/
structure VirtualMachine.Serves (v : VirtualMachine) (pod : Key) (p : Profile) : Prop where
  space : v.metadata.key.space = pod.space
  podName : v.podName? = some pod.name
  scalable : v.scalable = true
  profile : v.profile = .ok p

theorem VirtualMachine.grant?_eq_some_iff_serves {v : VirtualMachine} {pod : Key} {p : Profile} :
    v.grant? pod = some p ↔ v.Serves pod p := by
  rw [grant?_eq_some, pod?_eq_some]
  constructor
  · rintro ⟨hp, ⟨hname, hspace⟩, hscalable⟩
    exact ⟨hspace, hname, (profile_identity hp).2.symm.trans hscalable, hp⟩
  · rintro ⟨hspace, hname, hscalable, hp⟩
    exact ⟨hp, ⟨hname, hspace⟩, (profile_identity hp).2.trans hscalable⟩

theorem VirtualMachine.grant?_eq_none_iff_serves {v : VirtualMachine} {pod : Key} :
    v.grant? pod = none ↔ ∀ p, ¬ v.Serves pod p := by
  simp only [Option.eq_none_iff_forall_ne_some, ne_eq, grant?_eq_some_iff_serves]

def lastGrant? (machines : List VirtualMachine) (pod : Key) : Option Profile :=
  machines.reverse.findSome? (·.grant? pod)

section LastGrant

variable {machines : List VirtualMachine} {pod : Key} {p : Profile}

theorem lastGrant?_append_singleton (machines : List VirtualMachine) (v : VirtualMachine)
    (pod : Key) :
    lastGrant? (machines ++ [v]) pod = (v.grant? pod).or (lastGrant? machines pod) := by
  simp [lastGrant?, List.findSome?_cons]
  cases v.grant? pod <;> rfl

theorem lastGrant?_eq_none : lastGrant? machines pod = none ↔
    ∀ v ∈ machines, v.grant? pod = none := by
  simp [lastGrant?]

theorem isSome_lastGrant? : (lastGrant? machines pod).isSome ↔
    ∃ v ∈ machines, ∃ p, v.Serves pod p := by
  simp [Option.isSome_iff_ne_none, lastGrant?_eq_none,
    VirtualMachine.grant?_eq_none_iff_serves]

theorem lastGrant?_eq_some : lastGrant? machines pod = some p ↔
    ∃ before v after, machines = before ++ v :: after ∧ v.Serves pod p ∧
      ∀ w ∈ after, ∀ q, ¬ w.Serves pod q := by
  simp only [lastGrant?, List.findSome?_eq_some_iff, VirtualMachine.grant?_eq_some_iff_serves,
    VirtualMachine.grant?_eq_none_iff_serves]
  constructor
  · rintro ⟨after, v, before, hsplit, hv, hafter⟩
    refine ⟨before.reverse, v, after.reverse, ?_, hv, ?_⟩
    · have hreverse := congrArg List.reverse hsplit
      simpa using hreverse
    · intro w hw
      exact hafter w (List.mem_reverse.1 hw)
  · rintro ⟨before, v, after, rfl, hv, hafter⟩
    refine ⟨after.reverse, v, before.reverse, by simp, hv, ?_⟩
    intro w hw
    exact hafter w (List.mem_reverse.1 hw)

end LastGrant

namespace Reconciler

variable {c : ClusterView} {pod : Key} {items : List WorkItem}

theorem settle_of_puts_none (h : ∀ item ∈ items, (decide c item).puts pod = false) :
    settle c pod items none = none := by
  induction items with
  | nil => rfl
  | cons item items ih =>
    have hitem : (decide c item).onEntry pod none = none := by
      have hputs := h item (List.mem_cons_self ..)
      rw [← Option.not_isSome_iff_eq_none, isSome_onEntry, hputs]
      simp
    have hrest := ih fun other ho => h other (List.mem_cons_of_mem _ ho)
    calc settle c pod (item :: items) none
        = settle c pod items ((decide c item).onEntry pod none) := rfl
      _ = none := by rw [hitem, hrest]

theorem settle_workOfAdd (hlive : c.podIsLive pod = true) (v : VirtualMachine)
    (old : Option Entry) :
    settle c pod v.workOfAdd old = ((v.grant? pod).map .ofProfile).or old := by
  cases hgrant : v.grant? pod with
  | some p =>
    have hscalable := (VirtualMachine.grant?_eq_some.1 hgrant).2.2
    rw [VirtualMachine.workOfAdd_of_grant hgrant, settle_observed hlive hscalable]
    rfl
  | none =>
    apply settle_of_others
    rintro item hi rfl
    obtain ⟨p, key, hp, rfl⟩ := VirtualMachine.mem_workOfAdd hi
    rw [WorkItem.pod, hp] at hgrant
    cases hgrant

theorem settle_machines (hlive : c.podIsLive pod = true) (machines : List VirtualMachine)
    (old : Option Entry) :
    settle c pod (machines.flatMap VirtualMachine.workOfAdd) old =
      ((lastGrant? machines pod).map .ofProfile).or old := by
  -- From the end of the list: a later machine only counts by what it grants itself.
  induction machines using List.reverseRecOn with
  | nil => rfl
  | append_singleton machines v ih =>
    rw [List.flatMap_append, List.flatMap_singleton, settle_append, ih, settle_workOfAdd hlive,
      lastGrant?_append_singleton]
    cases v.grant? pod <;> rfl

theorem settle_lists (own : OwnKeys c.machines) {pods : List Pod} {machines : List VirtualMachine}
    (hlisted : ∀ machine v, c.machines.get? machine = some v → v ∈ machines) :
    settle c pod
        (pods.flatMap (fun x => Pod.work (.add x)) ++
          machines.flatMap fun v => VirtualMachine.work (.add v)) none =
      if c.podIsLive pod then (lastGrant? machines pod).map .ofProfile else none := by
  have hadds : (machines.flatMap fun v => VirtualMachine.work (.add v)) =
      machines.flatMap VirtualMachine.workOfAdd := rfl
  have hpodPuts : ∀ item ∈ pods.flatMap (fun x => Pod.work (.add x)),
      (decide c item).puts pod = (c.podIsLive pod && item.reserves c pod) := by
    intro item hi
    obtain ⟨x, -, hx⟩ := List.mem_flatMap.1 hi
    refine puts_decide own ?_
    rintro machine rfl
    exact Pod.space_of_started hx
  rw [settle_append, hadds]
  split
  · rename_i hlive
    rw [settle_machines hlive]
    cases hlast : lastGrant? machines pod with
    | some p => rfl
    -- The start of a pod puts nothing but what a machine of the view grants.
    | none =>
      have hungranted : c.Ungranted pod := by
        intro machine
        rw [ClusterView.grant?, Option.bind_eq_none_iff]
        exact fun v hv => lastGrant?_eq_none.1 hlast v (hlisted machine v hv)
      refine settle_of_puts_none ?_
      intro item hi
      obtain ⟨x, -, hx⟩ := List.mem_flatMap.1 hi
      rw [hpodPuts item hi, WorkItem.reserves_of_ungranted hungranted,
        Pod.observes_of_mem_work hx, Bool.and_false]
  · rename_i hlive
    rw [Bool.not_eq_true] at hlive
    rw [← settle_append]
    refine settle_of_puts_none ?_
    intro item hi
    rcases List.mem_append.1 hi with hi | hi
    · rw [hpodPuts item hi, hlive, Bool.false_and]
    · obtain ⟨v, -, hv⟩ := List.mem_flatMap.1 hi
      obtain ⟨p, key, -, rfl⟩ := VirtualMachine.mem_workOfAdd hv
      rw [decide, puts_reserve, hlive, Bool.false_and]

end Reconciler

/-! ## The application -/

section Lists

variable {P : Listing Pod} {V : Listing VirtualMachine} {early late : Nat} {pods : Rehearsal Pod}
  {machines : Rehearsal VirtualMachine}

theorem Application.queue_ofWatches (settings : Settings) (hpods : Rehearsal.Listed P early pods)
    (hmachines : Rehearsal.Listed V late machines) (htimes : early ≤ late) :
    (ofWatches settings (.ok ()) pods machines).queue =
      P.items.flatMap (fun x => Pod.work (.add x)) ++
        V.items.flatMap fun v => VirtualMachine.work (.add v) := by
  have hadvanced := hpods.advance (machines.now - pods.now)
  simp only [ofWatches, hadvanced.told, hmachines.told]
  rw [List.mergeSort_of_pairwise]
  · simp [Function.comp_def]
  · rw [List.pairwise_append, List.pairwise_map, List.pairwise_map]
    refine ⟨?_, ?_, ?_⟩
    · exact List.pairwise_of_forall fun _ _ => decide_eq_true (Nat.le_refl _)
    · exact List.pairwise_of_forall fun _ _ => decide_eq_true (Nat.le_refl _)
    · intro a ha b hb
      obtain ⟨_, -, rfl⟩ := List.mem_map.1 ha
      obtain ⟨_, -, rfl⟩ := List.mem_map.1 hb
      exact decide_eq_true htimes

theorem Application.view_ofWatches (settings : Settings) (hpods : Rehearsal.Listed P early pods)
    (hmachines : Rehearsal.Listed V late machines) :
    (ofWatches settings (.ok ()) pods machines).view =
      ⟨(Collection.empty.replace P).1.objects, (Collection.empty.replace V).1.objects⟩ := by
  have hadvanced := hpods.advance (machines.now - pods.now)
  rw [← hadvanced.collection, ← hmachines.collection]
  rfl

theorem Application.get?_reconcile_ofWatches (settings : Settings)
    (distinctMachines : (V.items.map key).Nodup) (hpods : Rehearsal.Listed P early pods)
    (hmachines : Rehearsal.Listed V late machines)
    (htimes : early ≤ late) (pod : Key) :
    (ofWatches settings (.ok ()) pods machines).reconcile.ledger.get? pod =
      if (ofWatches settings (.ok ()) pods machines).view.podIsLive pod then
        (lastGrant? V.items pod).map .ofProfile
      else none := by
  have hlisted : ∀ machine v,
      (ofWatches settings (.ok ()) pods machines).view.machines.get? machine = some v ↔
        v ∈ V.items ∧ v.metadata.key = machine := by
    intro machine v
    rw [view_ofWatches settings hpods hmachines]
    exact Collection.get?_replace_eq_some_iff distinctMachines
  have hledger : (ofWatches settings (.ok ()) pods machines).reconcile.ledger =
      (ofWatches settings (.ok ()) pods machines).queue.foldl
        (Ledger.apply (ofWatches settings (.ok ()) pods machines).view) .empty := rfl
  rw [hledger, Reconciler.get?_foldl_apply, queue_ofWatches settings hpods hmachines htimes]
  refine Reconciler.settle_lists ?_ ?_
  · exact fun machine v hv => ((hlisted machine v).1 hv).2
  · exact fun machine v hv => ((hlisted machine v).1 hv).1

theorem Application.podIsLive_ofWatches (settings : Settings)
    (distinctPods : (P.items.map key).Nodup) (hpods : Rehearsal.Listed P early pods)
    (hmachines : Rehearsal.Listed V late machines) (pod : Key) :
    (ofWatches settings (.ok ()) pods machines).view.podIsLive pod = true ↔
      ∃ x ∈ P.items, x.metadata.key = pod ∧ x.completed = false := by
  rw [view_ofWatches settings hpods hmachines, Pipeline.podIsLive_iff]
  constructor
  · rintro ⟨x, hx, hrunning⟩
    obtain ⟨hmem, hkey⟩ := (Collection.get?_replace_eq_some_iff distinctPods).1 hx
    exact ⟨x, hmem, hkey, hrunning⟩
  · rintro ⟨x, hmem, hkey, hrunning⟩
    exact ⟨x, (Collection.get?_replace_eq_some_iff distinctPods).2 ⟨hmem, hkey⟩, hrunning⟩

theorem Rehearsal.Listed.startFailure {α : Type} [ClusterObject α] {l : Listing α} {time : Nat}
    {s : Rehearsal α} (h : Listed l time s) (cause : WatchError → StartFailure) :
    s.startFailure? cause = none := by
  simp [startFailure?, h.finished]

end Lists

namespace Launch

variable {settings : Settings} {P : Listing Pod} {V : Listing VirtualMachine}
  {podFailures machineFailures : List WatchError}

theorem application_start
    (hpods : ∀ limit, settings.attemptLimit = some limit → podFailures.length < limit)
    (hmachines : ∀ limit, settings.attemptLimit = some limit → machineFailures.length < limit) :
    ∃ pods machines early late,
      (start settings ⟨podFailures.map .error ++ [.ok P], []⟩
          ⟨machineFailures.map .error ++ [.ok V], []⟩).application settings =
        .ok (.ofWatches settings (.ok ()) pods machines) ∧
      Rehearsal.Listed P early pods ∧ Rehearsal.Listed V late machines ∧ early ≤ late := by
  have hpodLimit : ∀ limit, settings.podConfig.attempts = some limit →
      podFailures.length < limit := hpods
  have hmachineLimit : ∀ limit, settings.machineConfig.attempts = some limit →
      machineFailures.length < limit := hmachines
  obtain ⟨early, -, hearly, hnow⟩ := Rehearsal.listed_started (l := P) hpodLimit 0
  obtain ⟨late, hle, hlate, -⟩ := Rehearsal.listed_started (l := V) hmachineLimit early
  refine ⟨_, _, early, late, ?_, hearly, hlate, hle⟩
  simp only [start, application, hearly.startFailure, hnow, hlate.startFailure]

/-- After the first lists and nothing else there is an entry for a pod just if it is listed, has not
completed and is served by a listed machine; the entry is that of the last one to serve it. -/
theorem entries_after_start (distinctPods : (P.items.map key).Nodup)
    (distinctMachines : (V.items.map key).Nodup)
    (hpods : ∀ limit, settings.attemptLimit = some limit → podFailures.length < limit)
    (hmachines : ∀ limit, settings.attemptLimit = some limit → machineFailures.length < limit) :
    ∃ app,
      (start settings ⟨podFailures.map .error ++ [.ok P], []⟩
          ⟨machineFailures.map .error ++ [.ok V], []⟩).application settings = .ok app ∧
      app.reconcile.queue = [] ∧
      (∀ pod, (app.reconcile.ledger.get? pod).isSome ↔
        (∃ x ∈ P.items, x.metadata.key = pod ∧ x.completed = false) ∧
          ∃ v ∈ V.items, ∃ p, v.Serves pod p) ∧
      ∀ pod e, app.reconcile.ledger.get? pod = some e ↔
        (∃ x ∈ P.items, x.metadata.key = pod ∧ x.completed = false) ∧
          ∃ before v after p, V.items = before ++ v :: after ∧ v.Serves pod p ∧
            (∀ w ∈ after, ∀ q, ¬ w.Serves pod q) ∧ e = .ofProfile p := by
  obtain ⟨pods, machines, early, late, happ, hearly, hlate, htimes⟩ :=
    application_start (P := P) (V := V) hpods hmachines
  have hlive := Application.podIsLive_ofWatches settings distinctPods hearly hlate
  have hledger := Application.get?_reconcile_ofWatches settings distinctMachines hearly
    hlate htimes
  refine ⟨_, happ, rfl, ?_, ?_⟩
  · intro pod
    rw [hledger pod, ← hlive pod, ← isSome_lastGrant?]
    split <;> simp [*]
  · intro pod e
    rw [hledger pod, ← hlive pod, Option.ite_none_right_eq_some, Option.map_eq_some_iff]
    apply and_congr_right'
    constructor
    · rintro ⟨p, hlast, rfl⟩
      obtain ⟨before, v, after, hsplit, hv, hafter⟩ := lastGrant?_eq_some.1 hlast
      exact ⟨before, v, after, p, hsplit, hv, hafter, rfl⟩
    · rintro ⟨before, v, after, p, hsplit, hv, hafter, rfl⟩
      exact ⟨p, lastGrant?_eq_some.2 ⟨before, v, after, hsplit, hv, hafter⟩, rfl⟩

def samplePods : List Pod :=
  [.sample "a" "1" "Running", .sample "b" "2" "Succeeded"]

def sampleMachines : List VirtualMachine :=
  [.sample "vm" "a", (VirtualMachine.sample "vm2" "a").withMaxCpu "8000m",
    (VirtualMachine.sample "vm3" "a").withMaxCpu "eight", .sample "vm4" "b"]

theorem entries_after_sample_start :
    ∃ app,
      (start .standard ⟨[.error (.listFailed "reset"), .ok ⟨some "7", samplePods⟩], []⟩
          ⟨[.ok ⟨some "7", sampleMachines⟩], []⟩).application .standard = .ok app ∧
      app.reconcile.ledger.get? ⟨"default", "a"⟩ =
        some ⟨⟨"default", "vm2"⟩, ⟨1000, 7000⟩, ⟨1, 3⟩⟩ ∧
      app.reconcile.ledger.get? ⟨"default", "b"⟩ = none := by
  obtain ⟨p, hp, hentryOf⟩ : ∃ p,
      ((VirtualMachine.sample "vm2" "a").withMaxCpu "8000m").profile = .ok p ∧
      (⟨⟨"default", "vm2"⟩, ⟨1000, 7000⟩, ⟨1, 3⟩⟩ : Entry) = .ofProfile p := ⟨_, rfl, rfl⟩
  have hpods : ∀ limit, Settings.standard.attemptLimit = some limit →
      [WatchError.listFailed "reset"].length < limit := by
    intro limit hlimit
    cases hlimit
    decide
  have hmachines : ∀ limit, Settings.standard.attemptLimit = some limit →
      ([] : List WatchError).length < limit := by
    intro limit hlimit
    cases hlimit
    decide
  obtain ⟨app, happ, -, hsome, hentry⟩ :=
    entries_after_start (P := ⟨some "7", samplePods⟩) (V := ⟨some "7", sampleMachines⟩)
      (by decide) (by decide) hpods hmachines
  refine ⟨app, happ, ?_, ?_⟩
  · refine (hentry _ _).2 ⟨⟨_, .head _, rfl, rfl⟩, [.sample "vm" "a"], _, _, p, rfl,
      ⟨rfl, rfl, rfl, hp⟩, ?_, hentryOf⟩
    rintro w hw q ⟨-, hname, -, hprofile⟩
    rcases List.mem_pair.1 hw with rfl | rfl
    · cases hprofile
    · exact absurd hname (by decide)
  · rw [← Option.not_isSome_iff_eq_none, hsome]
    rintro ⟨⟨x, hx, hkey, hrunning⟩, -⟩
    rcases List.mem_pair.1 hx with rfl | rfl
    · exact absurd hkey (by decide)
    · cases hrunning

end Launch

end BufferLedger
