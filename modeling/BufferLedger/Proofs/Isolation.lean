import BufferLedger.Proofs.Grant

/-!
# Namespaces are isolated

The part of the pipeline that is in one namespace is a pipeline of its own. A step about an object
of the namespace, or on an item of it, does to the part what it does to the whole; any other step
leaves the part as it is (`part_after`). So a run without the steps that do not concern the
namespace ends in the part of the state in which the whole run ends (`foldl_within`).
-/

namespace BufferLedger

/-! ## Parts of a map -/

def Key.isIn (space : String) (k : Key) : Bool :=
  k.space = space

theorem Call.restrict_applyTo {α : Type} [ClusterObject α] (keep : Key → Bool) (c : Call α)
    (m : OrderedMap Key α) :
    (c.applyTo m).restrict keep =
      if keep c.key then c.applyTo (m.restrict keep) else m.restrict keep := by
  refine OrderedMap.ext_get? fun k => ?_
  rw [OrderedMap.get?_restrict, c.get?_applyTo]
  by_cases hk : k = c.key
  · subst hk
    cases hkeep : keep c.key <;> simp [hkeep, c.get?_applyTo, OrderedMap.get?_restrict]
  · cases hkeep : keep c.key <;> simp [hk, c.get?_applyTo, OrderedMap.get?_restrict]

namespace Ledger

def restrict (keep : Key → Bool) (l : Ledger) : Ledger :=
  ⟨l.entries.restrict keep⟩

theorem get?_restrict (keep : Key → Bool) (l : Ledger) (pod : Key) :
    (l.restrict keep).get? pod = if keep pod then l.get? pod else none :=
  l.entries.get?_restrict keep pod

theorem ext_get? {l l' : Ledger} (h : ∀ pod, l.get? pod = l'.get? pod) : l = l' := by
  have hentries : l.entries = l'.entries := OrderedMap.ext_get? h
  cases l
  cases l'
  exact congrArg Ledger.mk hentries

theorem restrict_perform (keep : Key → Bool) (c : ClusterView) (item : WorkItem) (l : Ledger) :
    (l.perform (Reconciler.decide c item)).restrict keep =
      if keep item.pod then (l.restrict keep).perform (Reconciler.decide c item)
      else l.restrict keep := by
  refine ext_get? fun pod => ?_
  by_cases hk : item.pod = pod
  · subst hk
    cases hkeep : keep item.pod <;> simp [hkeep, get?_restrict, get?_perform]
  · cases hkeep : keep item.pod <;>
      simp [get?_restrict, get?_perform, Reconciler.onEntry_decide_of_ne hk]

end Ledger

theorem filter_of_same {α : Type} {p : α → Bool} {l : List α} {b : Bool}
    (h : ∀ a ∈ l, p a = b) : l.filter p = if b then l else [] := by
  cases b with
  | true => exact List.filter_eq_self.2 h
  | false => simpa using h

namespace Pipeline

/-! ## The part of a pipeline in one namespace -/

def part (space : String) (s : Pipeline) : Pipeline where
  view := ⟨s.view.pods.restrict (·.isIn space), s.view.machines.restrict (·.isIn space)⟩
  queue := s.queue.filter fun item => item.pod.isIn space
  decided := s.decided.filter fun taken => taken.1.pod.isIn space
  ledger := s.ledger.restrict (·.isIn space)

/-- What a step is about: the object of a call, or the pod of the item that the reconciler takes
or writes down. -/
def Event.subject? (s : Pipeline) : Event → Option Key
  | .pods c => some c.key
  | .machines c => some c.key
  | .decide => if s.decided.isNone then s.queue.head?.map (·.pod) else none
  | .write => s.decided.map fun taken => taken.1.pod

def Event.concerns (space : String) (s : Pipeline) (e : Event) : Bool :=
  (e.subject? s).any (·.isIn space)

/-- The steps of a run that concern the namespace, in the states in which the run takes them. -/
def within (space : String) : Pipeline → List Event → List Event
  | _, [] => []
  | s, e :: es =>
    if e.concerns space s then e :: within space (s.after e) es else within space (s.after e) es

/-! ## Calls -/

theorem part_podCall (space : String) (c : Call Pod) (s : Pipeline) :
    (s.podCall c).part space =
      if c.key.isIn space then (s.part space).podCall c else s.part space := by
  have hwork : (Pod.work c).filter (fun item => item.pod.isIn space) =
      if c.key.isIn space then Pod.work c else [] := by
    apply filter_of_same
    intro item hi
    rw [Pod.pod_of_mem_work hi]
  rw [podCall_eq, podCall_eq]
  simp only [part, Call.restrict_applyTo, List.filter_append, hwork]
  split
  · rfl
  · rw [List.append_nil]

theorem part_machineCall (space : String) (c : Call VirtualMachine) (s : Pipeline) :
    (s.machineCall c).part space =
      if c.key.isIn space then (s.part space).machineCall c else s.part space := by
  have hwork : (VirtualMachine.work c).filter (fun item => item.pod.isIn space) =
      if c.key.isIn space then VirtualMachine.work c else [] := by
    apply filter_of_same
    intro item hi
    obtain ⟨v, hv, hpod⟩ := VirtualMachine.pod_of_mem_work hi
    have hspace : c.key.space = item.pod.space := by
      rw [← c.key_of_result hv]
      exact (VirtualMachine.pod?_eq_some.1 hpod).2
    simp only [Key.isIn, hspace]
  rw [machineCall_eq, machineCall_eq]
  simp only [part, Call.restrict_applyTo, List.filter_append, hwork]
  split
  · rfl
  · rw [List.append_nil]

end Pipeline

/-! ## The reconciler -/

namespace Reconciler

variable {c c' : ClusterView} {item : WorkItem}

theorem reserve_congr {pod : Key} (h : c'.pods.get? pod = c.pods.get? pod) (p : Profile) :
    reserve c' p pod = reserve c p pod := by
  have hlive : c'.podIsLive pod = c.podIsLive pod := by
    simp only [ClusterView.podIsLive, h]
  rw [reserve, reserve, hlive]

theorem decide_congr (hpod : c'.pods.get? item.pod = c.pods.get? item.pod)
    (hmachine : ∀ pod machine, item = .podStarted pod machine →
      c'.machines.get? machine = c.machines.get? machine) :
    decide c' item = decide c item := by
  cases item with
  | observed p key => exact reserve_congr hpod p
  | podStarted key machine =>
    simp only [decide, hmachine key machine rfl]
    split
    · rfl
    · split
      · split
        · exact reserve_congr hpod _
        · rfl
      · rfl
  | boundsChanged p key | machinePodGone key | podGone key | scalingDisabled key => rfl

end Reconciler

namespace Pipeline

variable {space : String} {s : Pipeline}

structure Orderly (s : Pipeline) : Prop where
  tidy : s.Tidy
  decidedOn : ∀ item d, s.decided = some (item, d) → ∃ c, d = Reconciler.decide c item

theorem orderly_empty : empty.Orderly := by
  refine ⟨tidy_empty, ?_⟩
  intro item d hd
  cases hd

theorem Orderly.after (h : s.Orderly) (e : Event) : (s.after e).Orderly := by
  refine ⟨h.tidy.after e, ?_⟩
  intro item d hd
  cases e with
  | pods c =>
    rw [Pipeline.after, podCall_eq] at hd
    exact h.decidedOn item d hd
  | machines c =>
    rw [Pipeline.after, machineCall_eq] at hd
    exact h.decidedOn item d hd
  | decide =>
    rcases s.decideNext_cases with hsame | ⟨taken, rest, -, -, hnext⟩
    · rw [Pipeline.after, hsame] at hd
      exact h.decidedOn item d hd
    · rw [Pipeline.after, hnext] at hd
      obtain ⟨rfl, rfl⟩ := Prod.mk.inj (Option.some.inj hd)
      exact ⟨s.view, rfl⟩
  | write =>
    cases hs : s.decided with
    | none =>
      rw [Pipeline.after, write_of_idle hs, hs] at hd
      cases hd
    | some taken =>
      rw [Pipeline.after, write_of_decided hs] at hd
      cases hd

theorem part_decideNext (h : s.Tidy) (space : String) :
    s.decideNext.part space =
      if Event.decide.concerns space s then (s.part space).decideNext else s.part space := by
  cases hd : s.decided with
  | some taken =>
    have hfree : Event.decide.concerns space s = false := by
      simp [Event.concerns, Event.subject?, hd]
    rw [hfree, decideNext_of_decided (by simp [hd])]
    rfl
  | none =>
    cases hq : s.queue with
    | nil =>
      have hfree : Event.decide.concerns space s = false := by
        simp [Event.concerns, Event.subject?, hq]
      rw [hfree, decideNext_of_empty hq]
      rfl
    | cons item rest =>
      have hconcerns : Event.decide.concerns space s = item.pod.isIn space := by
        simp [Event.concerns, Event.subject?, hd, hq]
      rw [hconcerns, decideNext_of_idle hd hq]
      cases hin : item.pod.isIn space with
      | false => simp [part, hin, hq, hd]
      | true =>
        have hidle : (s.part space).decided = none := by simp [part, hd]
        have hqueue : (s.part space).queue =
            item :: rest.filter fun other => other.pod.isIn space := by
          simp [part, hq, hin]
        -- The machine that an item names is in the namespace of its pod.
        have hdecide : Reconciler.decide (s.part space).view item =
            Reconciler.decide s.view item := by
          apply Reconciler.decide_congr
          · simp [part, OrderedMap.get?_restrict, hin]
          · rintro pod machine rfl
            have hspace : machine.space = pod.space :=
              h.inSpace pod machine (hq ▸ List.mem_cons_self ..)
            have hmachine : machine.isIn space = true := by
              rw [Key.isIn, hspace]
              exact hin
            simp [part, OrderedMap.get?_restrict, hmachine]
        rw [if_pos rfl, decideNext_of_idle hidle hqueue, hdecide]
        simp [part, hin]

theorem part_write (h : s.Orderly) (space : String) :
    s.write.part space =
      if Event.write.concerns space s then (s.part space).write else s.part space := by
  cases hd : s.decided with
  | none =>
    have hfree : Event.write.concerns space s = false := by
      simp [Event.concerns, Event.subject?, hd]
    rw [hfree, write_of_idle hd]
    rfl
  | some taken =>
    obtain ⟨item, d⟩ := taken
    -- The view may have changed since, but what is written is still about the item's pod.
    obtain ⟨c, rfl⟩ := h.decidedOn item d hd
    have hconcerns : Event.write.concerns space s = item.pod.isIn space := by
      simp [Event.concerns, Event.subject?, hd]
    have hledger := s.ledger.restrict_perform (·.isIn space) c item
    rw [hconcerns, write_of_decided hd]
    cases hin : item.pod.isIn space with
    | false =>
      simp only [hin, Bool.false_eq_true, if_false] at hledger
      simp [part, hd, hin, hledger, Option.filter_some]
    | true =>
      have hpending : (s.part space).decided = some (item, Reconciler.decide c item) := by
        simp [part, hd, hin, Option.filter_some]
      simp only [hin, if_true] at hledger
      rw [if_pos rfl, write_of_decided hpending]
      simp [part, hledger]

/-! ## Runs -/

theorem part_after (h : s.Orderly) (space : String) (e : Event) :
    (s.after e).part space =
      if e.concerns space s then (s.part space).after e else s.part space := by
  cases e with
  | pods c => exact part_podCall space c s
  | machines c => exact part_machineCall space c s
  | decide => exact part_decideNext h.tidy space
  | write => exact part_write h space

theorem foldl_within (h : s.Orderly) (space : String) (events : List Event) :
    (within space s events).foldl after (s.part space) = (events.foldl after s).part space := by
  induction events generalizing s with
  | nil => rfl
  | cons e events ih =>
    have hrest := ih (h.after e)
    rw [part_after h space e] at hrest
    cases hc : e.concerns space s with
    | true => simpa [within, hc] using hrest
    | false => simpa [within, hc] using hrest

theorem orderly_foldl (events : List Event) : (events.foldl after empty).Orderly := by
  induction events using List.reverseRecOn with
  | nil => exact orderly_empty
  | append_singleton events e ih =>
    rw [List.foldl_append]
    exact ih.after e

/-- The entries of a namespace are those of the run without the steps that do not concern it,
which is done when the whole run is; and no such step touches them. -/
theorem entries_of_namespace (space : String) (events : List Event) :
    ((within space empty events).foldl after empty).ledger.entries.toList =
      (events.foldl after empty).ledger.entries.toList.filter (fun entry =>
        entry.1.space = space) ∧
    ((events.foldl after empty).queue = [] → (events.foldl after empty).decided = none →
      ((within space empty events).foldl after empty).queue = [] ∧
      ((within space empty events).foldl after empty).decided = none) ∧
    (∀ e : Event, e.concerns space (events.foldl after empty) = false →
      ∀ pod : Key, pod.space = space →
        ((events.foldl after empty).after e).ledger.get? pod =
          (events.foldl after empty).ledger.get? pod) := by
  have hstart : empty.part space = empty := rfl
  have hpart := foldl_within orderly_empty space events
  rw [hstart] at hpart
  rw [hpart]
  refine ⟨rfl, ?_, ?_⟩
  · intro hqueue hidle
    simp [part, hqueue, hidle]
  · intro e hfree pod hpod
    have hafter := part_after (orderly_foldl events) space e
    rw [hfree, if_neg Bool.false_ne_true] at hafter
    have hget := congrArg (fun t => t.ledger.get? pod) hafter
    simpa [part, Ledger.get?_restrict, Key.isIn, hpod] using hget

def namesakes : List Event :=
  [.pods (.add (.sample "a" "1" "Running")),
   .pods (.add ((Pod.sample "a" "1" "Running").inSpace "other")),
   .machines (.add ((VirtualMachine.sample "vm" "a").inSpace "other")),
   .machines (.add (.sample "vm" "a")),
   .pods (.delete ((Pod.sample "a" "2" "Running").inSpace "other") false),
   .decide, .write, .decide, .write, .decide, .write, .decide, .write, .decide, .write]

theorem entries_of_namesakes :
    (namesakes.foldl after empty).queue = [] ∧ (namesakes.foldl after empty).decided = none ∧
    (within "default" empty namesakes).length = 6 ∧
    ((within "default" empty namesakes).foldl after empty).queue = [] ∧
    (((within "default" empty namesakes).foldl after empty).ledger.entries.toList.map (·.1)) =
      [⟨"default", "a"⟩] ∧
    ((namesakes.foldl after empty).after
        (.machines (.delete ((VirtualMachine.sample "vm" "a").inSpace "other") false))).ledger.get?
      ⟨"default", "a"⟩ = (namesakes.foldl after empty).ledger.get? ⟨"default", "a"⟩ := by
  have hqueue : (namesakes.foldl after empty).queue = [] := rfl
  have hidle : (namesakes.foldl after empty).decided = none := rfl
  obtain ⟨hentries, hdone, huntouched⟩ := entries_of_namespace "default" namesakes
  refine ⟨hqueue, hidle, rfl, (hdone hqueue hidle).1, ?_, huntouched _ rfl _ rfl⟩
  rw [hentries]
  rfl

end Pipeline

end BufferLedger
