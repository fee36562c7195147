import BufferLedger.Proofs.Grant

/-!
# What is revoked stays revoked

An entry of a pod is asked for only while some machine grants the pod a reservation. An event that
revokes it, the end of the pod or an update that ends the machine's scaling there, asks to drop
the entry after all that the queue still holds. So as long as nothing grants the pod from then on,
working through the queue leaves no entry, whatever the pods do (`holds_after`,
`no_entry_once_revoked`). Scaling that ends otherwise is not noticed: over an unreadable version,
over one without a pod, by a move or by a new machine of the name (`unnoticed_end_keeps_entry`).
-/

namespace BufferLedger

/-- The event tells that the pod has come to its end, or takes a machine from a readable version
that may be scaled to a readable one on the pod that may not. -/
def Pipeline.Event.Revokes (pod : Key) : Pipeline.Event → Prop
  | .pods c => c.key = pod ∧ c.tellsEnd = true
  | .machines (.update old new) =>
    (∃ before, old.profile = .ok before ∧ before.scalable = true) ∧
      new.pod? = some pod ∧ ∃ now, new.profile = .ok now ∧ now.scalable = false
  | _ => False

theorem heldAfter_of_mem_drops {makes : WorkItem → Bool} {pod : Key} {items : List WorkItem}
    (hdrops : ∃ item ∈ items, item.drops pod = true) (hmakes : ∀ item ∈ items, makes item = false)
    (held : Bool) : heldAfter makes pod items held = false := by
  obtain ⟨item, hmem, hdrop⟩ := hdrops
  obtain ⟨before, rest, rfl⟩ := List.append_of_mem hmem
  have hrest : ∀ other ∈ rest, makes other = false := fun other ho =>
    hmakes other (List.mem_append_right _ (List.mem_cons_of_mem _ ho))
  rw [heldAfter_append]
  exact heldAfter_of_drops hdrop hrest _

namespace Pipeline

variable {s : Pipeline} {e : Event} {machine pod : Key}

/-! ## One event -/

theorem Tidy.observes_of_puts (tidy : s.Tidy) (hungranted : s.view.Ungranted pod) {item : WorkItem}
    (hi : item ∈ s.queue) (hputs : (Reconciler.decide s.view item).puts pod = true) :
    item.observes pod = true := by
  have hspace : ∀ other, item = .podStarted pod other → other.space = pod.space := by
    rintro other rfl
    exact tidy.inSpace pod other hi
  rw [Reconciler.puts_decide tidy.ownKeys hspace, Bool.and_eq_true] at hputs
  rw [← WorkItem.reserves_of_ungranted hungranted]
  exact hputs.2

theorem holds_after (tidy : s.Tidy) (hbefore : s.view.Ungranted pod)
    (hafter : (s.after e).view.Ungranted pod)
    (h : s.holds (fun item => item.observes pod) pod = false) :
    (s.after e).holds (fun item => item.observes pod) pod = false := by
  cases e with
  | pods c =>
    rw [after, holds_podCall, h]
    exact heldAfter_of_makes_none fun item hi => Pod.observes_of_mem_work hi pod
  | machines c =>
    rw [after, holds_machineCall, h]
    refine heldAfter_of_makes_none fun item hi => ?_
    rw [Bool.eq_false_iff]
    intro hobserves
    obtain ⟨v, p, hv, hgrant⟩ := VirtualMachine.grant_of_observes hi hobserves
    have hget : (s.machineCall c).view.machines.get? c.key = some v := by
      rw [get?_machineCall, if_pos rfl, hv]
    have hgranted : (s.machineCall c).view.grant? c.key pod = some p :=
      ClusterView.grant?_eq_some.2 ⟨v, hget, hgrant⟩
    exact absurd (hafter c.key) (by simp [after, hgranted])
  | decide =>
    rw [Bool.eq_false_iff]
    intro hholds
    have hs := holds_decideNext (fun item hi => tidy.observes_of_puts hbefore hi) hholds
    rw [h] at hs
    cases hs
  | write => rwa [after, holds_write]

theorem holds_of_revokes (h : e.Revokes pod) :
    (s.after e).holds (fun item => item.observes pod) pod = false := by
  cases e with
  | pods c =>
    obtain ⟨rfl, hend⟩ := h
    obtain ⟨item, hi, hends⟩ := Pod.exists_ends_work hend
    rw [after, holds_podCall]
    exact heldAfter_of_mem_drops ⟨item, hi, WorkItem.drops_of_ends hends⟩
      (fun item hi => Pod.observes_of_mem_work hi c.key) _
  | machines c =>
    rw [after, holds_machineCall]
    cases c with
    | update old new =>
      obtain ⟨⟨before, hold, hscaled⟩, hpod, now, hnew, hscalable⟩ := h
      obtain ⟨rest, hwork, hrest⟩ :=
        VirtualMachine.workOfUpdate_of_disabled hold hscaled hnew hscalable hpod
      have hall : VirtualMachine.work (.update old new) = .scalingDisabled pod :: rest := hwork
      have hdrops : (WorkItem.scalingDisabled pod).drops pod = true := decide_eq_true rfl
      rw [hall]
      refine heldAfter_of_drops hdrops (fun item hi => ?_) _
      rw [hrest item hi]
      rfl
    | add v => cases h
    | delete v stale => cases h
  | decide => cases h
  | write => cases h

/-! ## Runs -/

def NeverGrants (machine pod : Key) (s : Pipeline) (events : List Event) : Prop :=
  ∀ part, part <+: events → (part.foldl after s).view.grant? machine pod = none

theorem NeverGrants.now {events : List Event} (h : NeverGrants machine pod s events) :
    s.view.grant? machine pod = none :=
  h [] List.nil_prefix

theorem NeverGrants.next {events : List Event} (h : NeverGrants machine pod s (e :: events)) :
    NeverGrants machine pod (s.after e) events := by
  intro part hpart
  exact h (e :: part) (List.cons_prefix_cons.2 ⟨rfl, hpart⟩)

theorem holds_of_neverGrants {events : List Event} (tidy : s.Tidy) (alone : s.Alone machine pod)
    (allowed : Allowed (RunsAlone machine pod) s events) (never : NeverGrants machine pod s events)
    (h : s.holds (fun item => item.observes pod) pod = false) :
    (events.foldl after s).holds (fun item => item.observes pod) pod = false := by
  induction events generalizing s with
  | nil => exact h
  | cons e events ih =>
    obtain ⟨runs, hrest⟩ := allowed
    have alone' := alone.after tidy runs
    have hafter := holds_after tidy (alone.ungranted never.now) (alone'.ungranted never.next.now) h
    exact ih (tidy.after e) alone' hrest never.next hafter

/-- Once all is done there is no entry for the pod, if its machine never granted it one or an
event revoked it since when the machine has not granted it one again. -/
theorem no_entry_once_revoked {events : List Event} (run : Run (RunsAlone machine pod) events s)
    (revoked : NeverGrants machine pod .empty events ∨
      ∃ before e rest, events = before ++ e :: rest ∧ e.Revokes pod ∧
        NeverGrants machine pod ((before ++ [e]).foldl after .empty) rest)
    (hqueue : s.queue = []) (hidle : s.decided = none) : s.ledger.get? pod = none := by
  have hholds : s.holds (fun item => item.observes pod) pod = false := by
    rcases revoked with never | ⟨before, e, rest, rfl, hrevokes, never⟩
    · have hrun : Run (RunsAlone machine pod) ([] ++ events) s := run
      obtain ⟨t, ht, allowed, rfl⟩ := hrun.split
      obtain rfl := ht.state
      exact holds_of_neverGrants tidy_empty ht.alone allowed never rfl
    · obtain ⟨t, ht, ⟨runs, allowed⟩, rfl⟩ := run.split
      have tidy := ht.tidy
      have hstate : (before ++ [e]).foldl after .empty = t.after e := by
        rw [List.foldl_append, ← ht.state]
        rfl
      rw [hstate] at never
      have hlast := holds_of_neverGrants (tidy.after e) (ht.alone.after tidy runs) allowed never
        (holds_of_revokes hrevokes)
      exact hlast
  rw [holds_of_drained _ hqueue hidle] at hholds
  exact Option.not_isSome_iff_eq_none.1 (by simp [hholds])

/-! ## Runs that are written out -/

theorem NeverGrants.nil (h : s.view.grant? machine pod = none) :
    NeverGrants machine pod s [] := by
  intro part hpart
  obtain rfl := List.prefix_nil.1 hpart
  exact h

theorem NeverGrants.cons {events : List Event} (h : s.view.grant? machine pod = none)
    (hrest : NeverGrants machine pod (s.after e) events) :
    NeverGrants machine pod s (e :: events) := by
  intro part hpart
  cases part with
  | nil => exact h
  | cons e' part =>
    obtain ⟨rfl, htail⟩ := List.cons_prefix_cons.1 hpart
    exact hrest part htail

def sampleMachine : VirtualMachine := .sample "vm" "a"

def reserving : List Event :=
  [.pods (.add (.sample "a" "1" "Running")), .machines (.add sampleMachine), .decide, .write,
   .decide, .write]

def noticedEnd : List Event :=
  [.machines (.update sampleMachine { sampleMachine with spec := none }),
   .machines (.update { sampleMachine with spec := none } sampleMachine),
   .machines (.update sampleMachine sampleMachine.unscaled),
   .machines (.update sampleMachine.unscaled { sampleMachine.unscaled with spec := none }),
   .decide,
   .machines (.update { sampleMachine.unscaled with spec := none } sampleMachine.unscaled), .write]

theorem no_entry_after_noticed_end :
    Run (RunsAlone ⟨"default", "vm"⟩ ⟨"default", "a"⟩) (reserving ++ noticedEnd)
        ((reserving ++ noticedEnd).foldl after .empty) ∧
      (reserving.foldl after .empty).ledger.get? ⟨"default", "a"⟩ ≠ none ∧
      ((reserving ++ noticedEnd).foldl after .empty).ledger.get? ⟨"default", "a"⟩ = none := by
  have allowed : Allowed (RunsAlone ⟨"default", "vm"⟩ ⟨"default", "a"⟩) .empty
      (reserving ++ noticedEnd) :=
    ⟨.of_silent trivial rfl, .of_version trivial rfl rfl, .of_silent trivial rfl,
      .of_silent trivial rfl, .of_silent trivial rfl, .of_silent trivial rfl,
      .of_version rfl rfl rfl, .of_version rfl rfl rfl, .of_version rfl rfl rfl,
      .of_version rfl rfl rfl, .of_silent trivial rfl, .of_version rfl rfl rfl,
      .of_silent trivial rfl, trivial⟩
  have run := Run.start.follow allowed
  have hrevokes : Event.Revokes ⟨"default", "a"⟩
      (.machines (.update sampleMachine sampleMachine.unscaled)) :=
    ⟨⟨_, rfl, rfl⟩, rfl, _, rfl, rfl⟩
  have never : NeverGrants ⟨"default", "vm"⟩ ⟨"default", "a"⟩
      ((reserving ++ noticedEnd.take 3).foldl after .empty) (noticedEnd.drop 3) :=
    .cons rfl (.cons rfl (.cons rfl (.cons rfl (.nil rfl))))
  have hledger : (reserving.foldl after .empty).ledger.get? ⟨"default", "a"⟩ ≠ none := by decide
  exact ⟨run, hledger, no_entry_once_revoked run
    (.inr ⟨reserving ++ noticedEnd.take 2, _, noticedEnd.drop 3, rfl, hrevokes, never⟩) rfl rfl⟩

def KeepsEntry (ending : List Event) : Prop :=
  ∃ s v now, Run (RunsAlone ⟨"default", "vm"⟩ ⟨"default", "a"⟩) (reserving ++ ending) s ∧
    s.queue = [] ∧ s.decided = none ∧ s.view.machines.get? ⟨"default", "vm"⟩ = some v ∧
    v.profile = .ok now ∧ v.pod? = some ⟨"default", "a"⟩ ∧ now.scalable = false ∧
    (s.ledger.get? ⟨"default", "a"⟩).isSome

def endUnreadable : List Event :=
  [.machines (.update sampleMachine { sampleMachine with spec := none }),
   .machines (.update { sampleMachine with spec := none } sampleMachine.unscaled)]

def endWithoutPod : List Event :=
  [.machines (.update sampleMachine (VirtualMachine.sample "vm" "").unscaled),
   .machines (.update (VirtualMachine.sample "vm" "").unscaled sampleMachine.unscaled)]

def endOnOtherPod : List Event :=
  [.machines (.update sampleMachine (VirtualMachine.sample "vm" "b").unscaled),
   .machines (.update (VirtualMachine.sample "vm" "b").unscaled sampleMachine.unscaled),
   .decide, .write]

def endByNewMachine : List Event :=
  [.machines (.delete sampleMachine false), .machines (.add sampleMachine.unscaled)]

/-- Scaling ends over an unreadable version, over one without a pod, over one on another pod, and
by a new machine of the name. -/
theorem unnoticed_end_keeps_entry :
    KeepsEntry endUnreadable ∧ KeepsEntry endWithoutPod ∧ KeepsEntry endOnOtherPod ∧
      KeepsEntry endByNewMachine := by
  have opening : Allowed (RunsAlone ⟨"default", "vm"⟩ ⟨"default", "a"⟩) .empty reserving :=
    ⟨.of_silent trivial rfl, .of_version trivial rfl rfl, .of_silent trivial rfl,
      .of_silent trivial rfl, .of_silent trivial rfl, .of_silent trivial rfl, trivial⟩
  have run := Run.start.follow opening
  refine ⟨?_, ?_, ?_, ?_⟩
  · exact ⟨_, sampleMachine.unscaled, _, run.follow ⟨.of_version rfl rfl rfl,
      .of_version rfl rfl rfl, trivial⟩, rfl, rfl, rfl, rfl, rfl, rfl, rfl⟩
  · exact ⟨_, sampleMachine.unscaled, _, run.follow ⟨.of_version rfl rfl rfl,
      .of_version rfl rfl rfl, trivial⟩, rfl, rfl, rfl, rfl, rfl, rfl, rfl⟩
  · exact ⟨_, sampleMachine.unscaled, _, run.follow ⟨.of_version rfl rfl rfl,
      .of_version rfl rfl rfl, .of_silent trivial rfl, .of_silent trivial rfl, trivial⟩,
      rfl, rfl, rfl, rfl, rfl, rfl, rfl⟩
  · exact ⟨_, sampleMachine.unscaled, _, run.follow ⟨.of_silent trivial rfl,
      .of_version trivial rfl rfl, trivial⟩, rfl, rfl, rfl, rfl, rfl, rfl, rfl⟩

end Pipeline

end BufferLedger
