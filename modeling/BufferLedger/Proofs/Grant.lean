import BufferLedger.Proofs.ListDiff
import BufferLedger.Proofs.Outlook
import BufferLedger.Proofs.RecordDecoding

/-!
# Machines that may hold a reservation

A version of a machine grants a pod a reservation if it runs on the pod, may be scaled and tells
how. Calls about machines ask to observe a pod just where the new version grants what the old one
did not, and to change bounds where both grant it in different ranges; where scaling ends they ask
to drop the entry first. With the pod live, an item puts an entry if it observes one that may be
scaled or starts a machine that is granted one in the view (`puts_decide`).
-/

namespace BufferLedger

def Pod.machine? (p : Pod) : Option Key :=
  p.machineName?.map fun name => ⟨p.metadata.key.space, name⟩

namespace Profile

theorem identity_apply (o : Override) (p : Profile) :
    (p.apply o).1.key = p.key ∧ (p.apply o).1.scalable = p.scalable := by
  unfold apply
  split
  · exact ⟨rfl, rfl⟩
  · split <;> exact ⟨rfl, rfl⟩

theorem sameRange_iff {p q : Profile} :
    p.sameRange q = true ↔ (p.cpu.min = q.cpu.min ∧ p.cpu.max = q.cpu.max) ∧
      (p.mem.min = q.mem.min ∧ p.mem.max = q.mem.max) := by
  simp [sameRange, Bounds.sameRange]

theorem sameRange_refl (p : Profile) : p.sameRange p = true :=
  sameRange_iff.2 ⟨⟨rfl, rfl⟩, rfl, rfl⟩

theorem sameRange_trans {p q r : Profile} (h : p.sameRange q = true) (h' : q.sameRange r = true) :
    p.sameRange r = true := by
  obtain ⟨⟨hc, hc'⟩, hm, hm'⟩ := sameRange_iff.1 h
  obtain ⟨⟨gc, gc'⟩, gm, gm'⟩ := sameRange_iff.1 h'
  exact sameRange_iff.2 ⟨⟨hc.trans gc, hc'.trans gc'⟩, hm.trans gm, hm'.trans gm'⟩

end Profile

namespace VirtualMachine

def pod? (v : VirtualMachine) : Option Key :=
  v.podName?.map fun name => ⟨v.metadata.key.space, name⟩

/-- The profile by which the machine may hold a reservation for the pod. -/
def grant? (v : VirtualMachine) (pod : Key) : Option Profile :=
  match v.profile with
  | .ok p => if v.pod? = some pod ∧ p.scalable = true then some p else none
  | .error _ => none

variable {v old new : VirtualMachine} {p before now : Profile} {pod : Key}

theorem pod?_eq_some : v.pod? = some pod ↔
    v.podName? = some pod.name ∧ v.metadata.key.space = pod.space := by
  obtain ⟨space, name⟩ := pod
  simp [pod?]

theorem grant?_eq_some : v.grant? pod = some p ↔
    v.profile = .ok p ∧ v.pod? = some pod ∧ p.scalable = true := by
  unfold grant?
  cases h : v.profile with
  | error e => simp
  | ok q =>
    simp only [Option.ite_none_right_eq_some, Option.some.injEq, Except.ok.injEq]
    constructor
    · rintro ⟨hq, rfl⟩
      exact ⟨rfl, hq⟩
    · rintro ⟨rfl, hq⟩
      exact ⟨hq, rfl⟩

theorem grant?_eq_none (hv : v.profile = .ok p) : v.grant? pod = none ↔
    ¬ (v.pod? = some pod ∧ p.scalable = true) := by
  simp [grant?, hv]

theorem specProfile_identity (h : v.specProfile = .ok p) :
    p.key = v.metadata.key ∧ p.scalable = v.scalable := by
  obtain ⟨cpu, -, h⟩ := ok_of_bind h
  obtain ⟨mem, -, h⟩ := ok_of_bind h
  obtain ⟨size, -, h⟩ := ok_of_bind h
  cases h
  exact ⟨rfl, rfl⟩

theorem profile_identity (h : v.profile = .ok p) :
    p.key = v.metadata.key ∧ p.scalable = v.scalable := by
  obtain ⟨q, hspec, h⟩ := ok_of_bind h
  have hq := specProfile_identity hspec
  split at h
  · cases h
    exact hq
  · obtain ⟨o, -, h⟩ := ok_of_bind h
    obtain ⟨hkey, hscalable⟩ := q.identity_apply o
    cases hr : (q.apply o).2 with
    | error e =>
      simp only [hr] at h
      cases h
    | ok u =>
      simp only [hr] at h
      cases h
      exact ⟨hkey.trans hq.1, hscalable.trans hq.2⟩

theorem space_of_profile (h : v.profile = .ok p) : p.space = v.metadata.key.space :=
  congrArg Key.space (profile_identity h).1

theorem pod?_of_profile {name : String} (h : v.profile = .ok p) (hname : v.podName? = some name) :
    v.pod? = some ⟨p.space, name⟩ := by
  rw [space_of_profile h]
  exact pod?_eq_some.2 ⟨hname, rfl⟩

/-! ## The work that calls about machines ask for -/

theorem workOfBounds_cases (before : Profile) (oldPod : Option String) (now : Profile)
    (name : String) :
    (oldPod ≠ some name ∧
      workOfBounds before oldPod now name =
        if now.scalable then [.observedOn now name] else []) ∨
    (oldPod = some name ∧
      workOfBounds before oldPod now name =
        if before.sameRange now then [] else [.boundsChangedOn now name]) := by
  by_cases hpod : oldPod = some name
  · refine .inr ⟨hpod, ?_⟩
    cases hsame : before.sameRange now <;>
      simp [workOfBounds, BoundsChange.between, hpod, hsame]
  · exact .inl ⟨hpod, by simp [workOfBounds, BoundsChange.between, hpod]⟩

/-- Items of a call about a machine observe the pod of the new version or change its bounds, or
drop its entry. -/
theorem mem_workOfUpdate {item : WorkItem} (h : item ∈ workOfUpdate old new) :
    ∃ before now pod, old.profile = .ok before ∧ new.profile = .ok now ∧ new.pod? = some pod ∧
      (item = .observed now pod ∧ now.scalable = true ∨ item = .boundsChanged now pod ∨
        item = .scalingDisabled pod ∧ before.scalable = true ∧ now.scalable = false) := by
  unfold workOfUpdate at h
  split at h
  · rename_i before now name hold hnew hname
    refine ⟨before, now, ⟨now.space, name⟩, hold, hnew, pod?_of_profile hnew hname, ?_⟩
    have hbounds (hi : item ∈ workOfBounds before old.podName? now name) :
        item = .observed now ⟨now.space, name⟩ ∧ now.scalable = true ∨
          item = .boundsChanged now ⟨now.space, name⟩ := by
      rcases workOfBounds_cases before old.podName? now name with ⟨-, hw⟩ | ⟨-, hw⟩
      · rw [hw] at hi
        split at hi
        · exact .inl ⟨List.mem_singleton.1 hi, ‹_›⟩
        · cases hi
      · rw [hw] at hi
        split at hi
        · cases hi
        · exact .inr (List.mem_singleton.1 hi)
    cases hb : before.scalable <;> cases hn : now.scalable <;>
      simp only [ScalingChange.between, hb, hn] at h
    · exact (hbounds h).imp (fun hi => ⟨hi.1, hn.symm.trans hi.2⟩) .inl
    · exact .inl ⟨List.mem_singleton.1 h, rfl⟩
    · rcases List.mem_cons.1 h with hi | hi
      · exact .inr (.inr ⟨hi, rfl, rfl⟩)
      · exact (hbounds hi).imp (fun hi => ⟨hi.1, hn.symm.trans hi.2⟩) .inl
    · exact (hbounds h).imp (fun hi => ⟨hi.1, rfl⟩) .inl
  · cases h

theorem mem_workOfAdd {item : WorkItem} (h : item ∈ workOfAdd v) :
    ∃ p pod, v.grant? pod = some p ∧ item = .observed p pod := by
  unfold workOfAdd at h
  split at h
  · cases h
  · rename_i hs
    split at h
    · rename_i name p hname hp
      have hscalable : p.scalable = true := by
        rw [(profile_identity hp).2]
        simpa using hs
      exact ⟨p, ⟨p.space, name⟩,
        grant?_eq_some.2 ⟨hp, pod?_of_profile hp hname, hscalable⟩, List.mem_singleton.1 h⟩
    · cases h

theorem workOfAdd_of_grant (h : v.grant? pod = some p) : workOfAdd v = [.observed p pod] := by
  obtain ⟨hp, hpod, hscalable⟩ := grant?_eq_some.1 h
  obtain ⟨hname, hspace⟩ := pod?_eq_some.1 hpod
  have hs : v.scalable = true := (profile_identity hp).2.symm.trans hscalable
  have hkey : (⟨p.space, pod.name⟩ : Key) = pod := by rw [space_of_profile hp, hspace]
  simp [workOfAdd, hs, hname, hp, WorkItem.observedOn, hkey]

theorem workOfUpdate_of_new_grant (hold : old.profile = .ok before)
    (hnone : old.grant? pod = none) (h : new.grant? pod = some now)
    (hspace : old.metadata.key.space = new.metadata.key.space) :
    workOfUpdate old new = [.observed now pod] := by
  obtain ⟨hnew, hpod, hscalable⟩ := grant?_eq_some.1 h
  obtain ⟨hname, hpodSpace⟩ := pod?_eq_some.1 hpod
  have hkey : (⟨now.space, pod.name⟩ : Key) = pod := by rw [space_of_profile hnew, hpodSpace]
  have hobserved : WorkItem.observedOn now pod.name = .observed now pod := by
    rw [WorkItem.observedOn, hkey]
  simp only [workOfUpdate, hold, hnew, hname]
  cases hb : before.scalable with
  | false => simp only [ScalingChange.between, hscalable, hobserved]
  | true =>
    have hmoved : old.podName? ≠ some pod.name := by
      intro hsame
      exact (grant?_eq_none hold).1 hnone ⟨pod?_eq_some.2 ⟨hsame, hspace.trans hpodSpace⟩, hb⟩
    simp [ScalingChange.between, hscalable, workOfBounds, BoundsChange.between, hmoved, hobserved]

theorem workOfUpdate_of_grants (hold : old.grant? pod = some before)
    (h : new.grant? pod = some now) :
    workOfUpdate old new = if before.sameRange now then [] else [.boundsChanged now pod] := by
  obtain ⟨hbefore, holdPod, hscaled⟩ := grant?_eq_some.1 hold
  obtain ⟨hnew, hpod, hscalable⟩ := grant?_eq_some.1 h
  obtain ⟨hname, hpodSpace⟩ := pod?_eq_some.1 hpod
  have hkey : (⟨now.space, pod.name⟩ : Key) = pod := by rw [space_of_profile hnew, hpodSpace]
  have hstayed := (pod?_eq_some.1 holdPod).1
  simp only [workOfUpdate, hbefore, hnew, hname, hstayed, ScalingChange.between, hscaled,
    hscalable]
  cases hsame : before.sameRange now <;>
    simp [workOfBounds, BoundsChange.between, hsame, WorkItem.boundsChangedOn, hkey]

theorem workOfUpdate_of_disabled (hold : old.profile = .ok before)
    (hscaled : before.scalable = true) (hnew : new.profile = .ok now)
    (hscalable : now.scalable = false) (hpod : new.pod? = some pod) :
    ∃ rest, workOfUpdate old new = .scalingDisabled pod :: rest ∧
      ∀ item ∈ rest, item = .boundsChanged now pod := by
  obtain ⟨hname, hpodSpace⟩ := pod?_eq_some.1 hpod
  have hkey : (⟨now.space, pod.name⟩ : Key) = pod := by rw [space_of_profile hnew, hpodSpace]
  refine ⟨workOfBounds before old.podName? now pod.name, ?_, ?_⟩
  · simp [workOfUpdate, hold, hnew, hname, ScalingChange.between, hscaled, hscalable, hkey]
  · intro item hi
    rcases workOfBounds_cases before old.podName? now pod.name with ⟨-, hw⟩ | ⟨-, hw⟩
    · rw [hw, hscalable] at hi
      cases hi
    · rw [hw] at hi
      split at hi
      · cases hi
      · rw [List.mem_singleton.1 hi, WorkItem.boundsChangedOn, hkey]

theorem pod_of_mem_work {c : Call VirtualMachine} {item : WorkItem} (h : item ∈ work c) :
    ∃ v, c.result = some v ∧ v.pod? = some item.pod := by
  cases c with
  | add v =>
    obtain ⟨p, pod, hgrant, rfl⟩ := mem_workOfAdd h
    exact ⟨v, rfl, (grant?_eq_some.1 hgrant).2.1⟩
  | update old new =>
    obtain ⟨before, now, pod, -, -, hpod, ⟨rfl, -⟩ | rfl | ⟨rfl, -⟩⟩ := mem_workOfUpdate h
    all_goals exact ⟨new, rfl, hpod⟩
  | delete v stale => cases h

end VirtualMachine

/-! ## What a view grants -/

def ClusterView.grant? (c : ClusterView) (machine pod : Key) : Option Profile :=
  (c.machines.get? machine).bind (·.grant? pod)

def ClusterView.Ungranted (c : ClusterView) (pod : Key) : Prop :=
  ∀ machine, c.grant? machine pod = none

theorem ClusterView.grant?_eq_some {c : ClusterView} {machine pod : Key} {p : Profile} :
    c.grant? machine pod = some p ↔
      ∃ v, c.machines.get? machine = some v ∧ v.grant? pod = some p :=
  Option.bind_eq_some_iff

namespace WorkItem

def profile? : WorkItem → Option Profile
  | .observed p _ | .boundsChanged p _ => some p
  | _ => none

def observes (pod : Key) : WorkItem → Bool
  | .observed p key => key = pod && p.scalable
  | _ => false

theorem observed_of_observes {item : WorkItem} {pod : Key} (h : item.observes pod = true) :
    ∃ p, p.scalable = true ∧ item = .observed p pod := by
  cases item with
  | observed p key =>
    obtain ⟨hkey, hscalable⟩ : key = pod ∧ p.scalable = true := by simpa [observes] using h
    exact ⟨p, hscalable, hkey ▸ rfl⟩
  | _ => cases h

def reserves (c : ClusterView) (pod : Key) : WorkItem → Bool
  | .podStarted key machine => key = pod && (c.grant? machine pod).isSome
  | item => item.observes pod

theorem reserves_of_ungranted {c : ClusterView} {pod : Key} (h : c.Ungranted pod)
    (item : WorkItem) : item.reserves c pod = item.observes pod := by
  cases item with
  | podStarted key machine => simp [reserves, observes, h machine]
  | _ => rfl

end WorkItem

theorem Pod.mem_work {c : Call Pod} {item : WorkItem} (h : item ∈ work c) :
    (item.ends c.key = true ∧ c.tellsEnd = true) ∨
      ∃ p machine, c = .add p ∧ p.completed = false ∧ p.machine? = some machine ∧
        item = .podStarted p.metadata.key machine := by
  cases c with
  | add p =>
    simp only [work] at h
    split at h
    · cases h
    · rename_i hlive
      split at h
      · rename_i name hname
        refine .inr ⟨p, ⟨p.metadata.key.space, name⟩, rfl, by simpa using hlive, ?_, ?_⟩
        · simp [machine?, hname]
        · exact List.mem_singleton.1 h
      · cases h
  | update old new =>
    left
    cases ho : old.completed <;> cases hn : new.completed <;>
      simp [work, Completion.onUpdate, ho, hn] at h
    rw [h, ends_release]
    exact ⟨decide_eq_true rfl, by simp [Call.tellsEnd, ho, hn]⟩
  | delete p stale =>
    left
    cases hp : p.completed <;> simp [work, Completion.onDelete, hp] at h
    rw [h, ends_release]
    exact ⟨decide_eq_true rfl, by simp [Call.tellsEnd, hp]⟩

theorem Pod.work_add {x : Pod} {machine : Key} (hrunning : x.completed = false)
    (hmachine : x.machine? = some machine) :
    work (.add x) = [.podStarted x.metadata.key machine] := by
  obtain ⟨name, hname, rfl⟩ := Option.map_eq_some_iff.1 hmachine
  simp [work, hrunning, hname, WorkItem.podStartedFor]

theorem Pod.work_update {old new : Pod} (hwas : old.completed = false)
    (hrunning : new.completed = false) : work (.update old new) = [] := by
  simp [work, Completion.onUpdate, hwas, hrunning]

theorem Pod.pod_of_mem_work {c : Call Pod} {item : WorkItem} (h : item ∈ work c) :
    item.pod = c.key := by
  rcases mem_work h with ⟨hends, -⟩ | ⟨p, machine, rfl, -, -, rfl⟩
  · exact WorkItem.pod_of_drops (WorkItem.drops_of_ends hends)
  · rfl

theorem Pod.space_of_started {c : Call Pod} {pod machine : Key}
    (h : .podStarted pod machine ∈ work c) : machine.space = pod.space := by
  rcases mem_work h with ⟨hends, -⟩ | ⟨p, key, rfl, -, hmachine, hi⟩
  · cases hends
  · cases hi
    obtain ⟨name, -, rfl⟩ := Option.map_eq_some_iff.1 hmachine
    rfl

theorem VirtualMachine.not_started_mem_work {c : Call VirtualMachine} {pod machine : Key} :
    .podStarted pod machine ∉ work c := by
  intro h
  cases c with
  | add v =>
    obtain ⟨p, key, -, hi⟩ := mem_workOfAdd h
    cases hi
  | update old new =>
    obtain ⟨before, now, key, -, -, -, ⟨hi, -⟩ | hi | ⟨hi, -⟩⟩ := mem_workOfUpdate h
    all_goals cases hi
  | delete v stale => cases h

theorem Pod.profile_of_mem_work {c : Call Pod} {item : WorkItem} (h : item ∈ work c) :
    item.profile? = none := by
  rcases mem_work h with ⟨hends, -⟩ | ⟨x, machine, -, -, -, rfl⟩
  · cases item with
    | machinePodGone key | podGone key | scalingDisabled key | podStarted key machine => rfl
    | boundsChanged p key | observed p key => cases hends
  · rfl

theorem Pod.observes_of_mem_work {c : Call Pod} {item : WorkItem} (h : item ∈ work c)
    (pod : Key) : item.observes pod = false := by
  rw [Bool.eq_false_iff]
  intro ho
  obtain ⟨p, -, rfl⟩ := WorkItem.observed_of_observes ho
  have hnone := profile_of_mem_work h
  cases hnone

theorem VirtualMachine.grant_of_mem_work {c : Call VirtualMachine} {item : WorkItem} {p : Profile}
    (h : item ∈ work c) (hp : item.profile? = some p) (hscalable : p.scalable = true) :
    ∃ v, c.result = some v ∧ v.grant? item.pod = some p := by
  cases c with
  | add v =>
    obtain ⟨q, key, hgrant, rfl⟩ := mem_workOfAdd h
    cases hp
    exact ⟨v, rfl, hgrant⟩
  | update old new =>
    obtain ⟨before, now, key, -, hnew, hpod, hitem⟩ := mem_workOfUpdate h
    have hgrant (hnow : now.scalable = true) : new.grant? key = some now :=
      grant?_eq_some.2 ⟨hnew, hpod, hnow⟩
    rcases hitem with ⟨rfl, hnow⟩ | rfl | ⟨rfl, -⟩
    · cases hp
      exact ⟨new, rfl, hgrant hnow⟩
    · cases hp
      exact ⟨new, rfl, hgrant hscalable⟩
    · cases hp
  | delete v stale => cases h

theorem VirtualMachine.grant_of_observes {c : Call VirtualMachine} {item : WorkItem} {pod : Key}
    (h : item ∈ work c) (ho : item.observes pod = true) :
    ∃ v p, c.result = some v ∧ v.grant? pod = some p := by
  obtain ⟨p, hscalable, rfl⟩ := WorkItem.observed_of_observes ho
  obtain ⟨v, hv, hgrant⟩ := grant_of_mem_work h rfl hscalable
  exact ⟨v, p, hv, hgrant⟩

namespace Reconciler

variable {c : ClusterView} {p : Profile} {machine pod : Key}

theorem reserve_of_live (hlive : c.podIsLive pod = true) (hscalable : p.scalable = true) :
    reserve c p pod = .put pod (.ofProfile p) := by
  simp [reserve, hlive, hscalable]

theorem settle_observed (hlive : c.podIsLive pod = true) (hscalable : p.scalable = true)
    (old : Option Entry) : settle c pod [.observed p pod] old = some (.ofProfile p) := by
  have hdecide : decide c (.observed p pod) = .put pod (.ofProfile p) :=
    reserve_of_live hlive hscalable
  simp [settle, hdecide, Decision.onEntry]

theorem puts_reserve (c : ClusterView) (p : Profile) (key pod : Key) :
    (reserve c p key).puts pod =
      (c.podIsLive pod && (Decidable.decide (key = pod) && p.scalable)) := by
  by_cases hk : key = pod
  · subst hk
    cases hs : p.scalable <;> cases hl : c.podIsLive key <;>
      simp [reserve, hs, hl, Decision.puts]
  · have hput : (reserve c p key).puts pod = false := by
      rcases reserve_cases c p key with h | h <;> simp [h, Decision.puts, Ne.symm hk]
    simp [hput, hk]

theorem decide_podStarted (own : OwnKeys c.machines) (hspace : machine.space = pod.space) :
    decide c (.podStarted pod machine) =
      match c.grant? machine pod with
      | some p => reserve c p pod
      | none => .keep := by
  unfold ClusterView.grant?
  cases hv : c.machines.get? machine with
  | none => simp [decide, hv]
  | some v =>
    have hkey : v.metadata.key = machine := own machine v hv
    have hpod : v.pod? = some pod ↔ v.podName? = some pod.name := by
      rw [VirtualMachine.pod?_eq_some, hkey]
      exact and_iff_left hspace
    by_cases hname : v.podName? = some pod.name
    · cases hp : v.profile with
      | error e => simp [decide, hv, hname, hp, VirtualMachine.grant?]
      | ok p =>
        cases hs : p.scalable <;>
          simp [decide, hv, hname, hp, VirtualMachine.grant?, hpod.2 hname, hs, reserve]
    · have hnone : v.grant? pod = none := by
        rw [Option.eq_none_iff_forall_ne_some]
        intro p hp
        exact hname (hpod.1 (VirtualMachine.grant?_eq_some.1 hp).2.1)
      simp [decide, hv, hname, hnone]

theorem puts_decide (own : OwnKeys c.machines) {item : WorkItem}
    (hspace : ∀ machine, item = .podStarted pod machine → machine.space = pod.space) :
    (decide c item).puts pod = (c.podIsLive pod && item.reserves c pod) := by
  cases item with
  | observed p key => exact puts_reserve c p key pod
  | podStarted key machine =>
    by_cases hk : key = pod
    · subst hk
      rw [decide_podStarted own (hspace machine rfl)]
      cases hg : c.grant? machine key with
      | none => simp [Decision.puts, WorkItem.reserves, hg]
      | some p =>
        obtain ⟨v, -, hv⟩ := ClusterView.grant?_eq_some.1 hg
        have hscalable := (VirtualMachine.grant?_eq_some.1 hv).2.2
        simp [puts_reserve, WorkItem.reserves, hg, hscalable]
    · have hputs : (decide c (.podStarted key machine)).puts pod = false := by
        rw [Bool.eq_false_iff]
        exact fun h => hk (pod_of_puts h)
      simp [hputs, WorkItem.reserves, hk]
  | boundsChanged p key =>
    simp only [decide]
    split <;> simp [Decision.puts, WorkItem.reserves, WorkItem.observes]
  | machinePodGone key | podGone key | scalingDisabled key =>
    simp [decide, Decision.puts, WorkItem.reserves, WorkItem.observes]

end Reconciler

/-! ## Runs -/

namespace Pipeline

/-- Machines have their own keys, and pods start machines of their own namespace. -/
structure Tidy (s : Pipeline) : Prop where
  ownKeys : OwnKeys s.view.machines
  inSpace : ∀ pod machine, .podStarted pod machine ∈ s.queue → machine.space = pod.space

theorem tidy_empty : empty.Tidy := by
  refine ⟨ownKeys_empty, ?_⟩
  intro pod machine hi
  cases hi

theorem Tidy.after {s : Pipeline} (h : s.Tidy) (e : Event) : (s.after e).Tidy := by
  cases e with
  | pods c =>
    refine ⟨?_, ?_⟩
    · have hmachines := podCall_machines c s
      exact hmachines ▸ h.ownKeys
    · intro pod machine hi
      rw [Pipeline.after, podCall_queue, List.mem_append] at hi
      rcases hi with hi | hi
      · exact h.inSpace pod machine hi
      · exact Pod.space_of_started hi
  | machines c =>
    refine ⟨?_, ?_⟩
    · have hmachines := machineCall_machines c s
      exact hmachines ▸ h.ownKeys.applyTo c
    · intro pod machine hi
      rw [Pipeline.after, machineCall_queue, List.mem_append] at hi
      rcases hi with hi | hi
      · exact h.inSpace pod machine hi
      · exact absurd hi VirtualMachine.not_started_mem_work
  | decide =>
    refine ⟨?_, fun pod machine hi => h.inSpace pod machine (decideNext_queue_subset hi)⟩
    exact s.decideNext_view ▸ h.ownKeys
  | write =>
    refine ⟨?_, fun pod machine hi => h.inSpace pod machine (s.write_queue ▸ hi)⟩
    exact s.write_view ▸ h.ownKeys

theorem Run.tidy {allows : Pipeline → Event → Prop} {events : List Event} {s : Pipeline}
    (run : Run allows events s) : s.Tidy :=
  run.invariant tidy_empty fun _ e h _ => h.after e

section Alone

variable {s : Pipeline} {e : Event} {machine pod : Key}

/-- Updates start from what is there, and no other machine ever runs on the pod. -/
structure RunsAlone (machine pod : Key) (s : Pipeline) (e : Event) : Prop where
  known : UpdatesKnown s e
  alone : ∀ v, e.machineSeen? = some v → v.pod? = some pod → v.metadata.key = machine

theorem RunsAlone.of_silent (hknown : UpdatesKnown s e) (hm : e.machineSeen? = none) :
    RunsAlone machine pod s e := by
  refine ⟨hknown, ?_⟩
  intro v hv
  rw [hm] at hv
  cases hv

theorem RunsAlone.of_version {v : VirtualMachine} (hknown : UpdatesKnown s e)
    (hv : e.machineSeen? = some v) (hkey : v.metadata.key = machine) :
    RunsAlone machine pod s e := by
  refine ⟨hknown, ?_⟩
  intro w hw _
  rw [hv] at hw
  cases hw
  exact hkey

def Alone (machine pod : Key) (s : Pipeline) : Prop :=
  ∀ key v, s.view.machines.get? key = some v → v.pod? = some pod → key = machine

theorem Alone.after (tidy : s.Tidy) (h : s.Alone machine pod)
    (runs : RunsAlone machine pod s e) : (s.after e).Alone machine pod := by
  intro key v hv hpod
  cases e with
  | machines c =>
    have hkey := (tidy.after (.machines c)).ownKeys key v hv
    rw [Pipeline.after, get?_machineCall] at hv
    split at hv
    · exact hkey.symm.trans (runs.alone v hv hpod)
    · exact h key v hv hpod
  | pods c | decide | write =>
    rw [machines_after fun c => Event.noConfusion] at hv
    exact h key v hv hpod

theorem Run.alone {events : List Event} (run : Run (RunsAlone machine pod) events s) :
    s.Alone machine pod := by
  have hboth : s.Tidy ∧ s.Alone machine pod := by
    refine run.invariant (I := fun s => s.Tidy ∧ s.Alone machine pod) ⟨tidy_empty, ?_⟩ ?_
    · intro key v hv
      cases hv
    · intro s e h runs
      exact ⟨h.1.after e, h.2.after h.1 runs⟩
  exact hboth.2

theorem Alone.ungranted (h : s.Alone machine pod) (hnone : s.view.grant? machine pod = none) :
    s.view.Ungranted pod := by
  intro key
  rw [Option.eq_none_iff_forall_ne_some]
  intro p hp
  obtain ⟨v, hv, hgrant⟩ := ClusterView.grant?_eq_some.1 hp
  obtain rfl := h key v hv (VirtualMachine.grant?_eq_some.1 hgrant).2.1
  rw [hnone] at hp
  cases hp

end Alone

end Pipeline

end BufferLedger
