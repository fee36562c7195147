import BufferLedger.Pipeline
import BufferLedger.Proofs.Calls
import Mathlib.Data.List.Induction

/-!
# Runs of the pipeline

Calls of the two watches and the two halves of the reconciler's steps come in any order. What a
run may take is a parameter, so that each statement asks of the calls just what it needs.
-/

namespace BufferLedger

namespace Pipeline

inductive Event
  | pods (c : Call Pod)
  | machines (c : Call VirtualMachine)
  | decide
  | write

def after (s : Pipeline) : Event → Pipeline
  | .pods c => s.podCall c
  | .machines c => s.machineCall c
  | .decide => s.decideNext
  | .write => s.write

inductive Run (allows : Pipeline → Event → Prop) : List Event → Pipeline → Prop
  | start : Run allows [] .empty
  | step {events s e} : Run allows events s → allows s e → Run allows (events ++ [e]) (s.after e)

theorem Run.invariant {allows : Pipeline → Event → Prop} {I : Pipeline → Prop}
    (hstart : I .empty) (hstep : ∀ s e, I s → allows s e → I (s.after e))
    {events : List Event} {s : Pipeline} (run : Run allows events s) : I s := by
  induction run with
  | start => exact hstart
  | @step events s e _ hallows ih => exact hstep s e ih hallows

def Allowed (allows : Pipeline → Event → Prop) : Pipeline → List Event → Prop
  | _, [] => True
  | s, e :: es => allows s e ∧ Allowed allows (s.after e) es

theorem Run.follow {allows : Pipeline → Event → Prop} {events es : List Event} {s : Pipeline}
    (run : Run allows events s) (hes : Allowed allows s es) :
    Run allows (events ++ es) (es.foldl after s) := by
  induction es generalizing events s with
  | nil => simpa using run
  | cons e es ih =>
    obtain ⟨he, hrest⟩ := hes
    simpa using ih (run.step he) hrest

theorem Run.last {allows : Pipeline → Event → Prop} {events : List Event} {e : Event}
    {s : Pipeline} (run : Run allows (events ++ [e]) s) :
    ∃ t, Run allows events t ∧ allows t e ∧ s = t.after e := by
  generalize h : events ++ [e] = all at run
  cases run with
  | start => simp at h
  | step run hallows =>
    obtain ⟨rfl, he⟩ := List.append_inj' h rfl
    cases he
    exact ⟨_, run, hallows, rfl⟩

theorem Allowed.snoc {allows : Pipeline → Event → Prop} {s : Pipeline} {es : List Event}
    {e : Event} (h : Allowed allows s es) (he : allows (es.foldl after s) e) :
    Allowed allows s (es ++ [e]) := by
  induction es generalizing s with
  | nil => exact ⟨he, trivial⟩
  | cons e' es ih => exact ⟨h.1, ih h.2 he⟩

theorem Run.split {allows : Pipeline → Event → Prop} {events es : List Event} {s : Pipeline}
    (run : Run allows (events ++ es) s) :
    ∃ t, Run allows events t ∧ Allowed allows t es ∧ s = es.foldl after t := by
  induction es using List.reverseRecOn generalizing s with
  | nil => exact ⟨s, by simpa using run, trivial, rfl⟩
  | append_singleton es e ih =>
    rw [← List.append_assoc] at run
    obtain ⟨u, hrun, hallows, rfl⟩ := run.last
    obtain ⟨t, ht, hes, rfl⟩ := ih hrun
    exact ⟨t, ht, hes.snoc hallows, by simp⟩

theorem Run.state {allows : Pipeline → Event → Prop} {events : List Event} {s : Pipeline}
    (run : Run allows events s) : s = events.foldl after .empty := by
  induction run with
  | start => rfl
  | @step events s e _ _ ih => simp [← ih]

theorem Run.mono {allows allows' : Pipeline → Event → Prop} {events : List Event} {s : Pipeline}
    (run : Run allows events s) (h : ∀ t, ∀ e ∈ events, allows t e → allows' t e) :
    Run allows' events s := by
  induction run with
  | start => exact .start
  | @step events s e _ hallows ih =>
    have hlast := h s e (List.mem_append_right _ (List.mem_singleton_self e)) hallows
    exact (ih fun t e' he => h t e' (List.mem_append_left _ he)).step hlast

/-! ## What events carry -/

def Event.podSeen? : Event → Option Pod
  | .pods c => c.result
  | _ => none

def Event.machineSeen? : Event → Option VirtualMachine
  | .machines c => c.result
  | _ => none

theorem machinesSeen_append (events : List Event) (e : Event) :
    (events ++ [e]).filterMap Event.machineSeen? =
      events.filterMap Event.machineSeen? ++ e.machineSeen?.toList := by
  cases he : e.machineSeen? <;> simp [he]

def UpdatesKnown (s : Pipeline) : Event → Prop
  | .pods (.update old new) => s.view.pods.get? new.metadata.key = some old
  | .machines (.update old new) => s.view.machines.get? new.metadata.key = some old
  | _ => True

/-! ## Taking an item -/

theorem decideNext_of_decided {s : Pipeline} (h : s.decided ≠ none) : s.decideNext = s := by
  cases hd : s.decided with
  | none => exact absurd hd h
  | some d => simp [decideNext, hd]

theorem decideNext_of_idle {s : Pipeline} {item : WorkItem} {rest : List WorkItem}
    (hd : s.decided = none) (hq : s.queue = item :: rest) :
    s.decideNext =
      { s with queue := rest, decided := some (item, Reconciler.decide s.view item) } := by
  simp [decideNext, hd, hq]

theorem decideNext_of_empty {s : Pipeline} (hq : s.queue = []) : s.decideNext = s := by
  cases hd : s.decided <;> simp [decideNext, hd, hq]

theorem write_of_idle {s : Pipeline} (hd : s.decided = none) : s.write = s := by
  simp [write, hd]

theorem write_of_decided {s : Pipeline} {item : WorkItem} {d : Decision}
    (hd : s.decided = some (item, d)) :
    s.write = { s with decided := none, ledger := s.ledger.perform d } := by
  simp [write, hd]

theorem decideNext_cases (s : Pipeline) :
    s.decideNext = s ∨ ∃ item rest, s.decided = none ∧ s.queue = item :: rest ∧
      s.decideNext =
        { s with queue := rest, decided := some (item, Reconciler.decide s.view item) } := by
  by_cases hd : s.decided = none
  · cases hq : s.queue with
    | nil => exact .inl (decideNext_of_empty hq)
    | cons item rest => exact .inr ⟨item, rest, hd, rfl, decideNext_of_idle hd hq⟩
  · exact .inl (decideNext_of_decided hd)

end Pipeline

/-! ## Decisions -/

namespace Reconciler

theorem reserve_eq_put {c : ClusterView} {p : Profile} {pod : Key} {key : Key} {e : Entry}
    (h : reserve c p pod = .put key e) :
    key = pod ∧ e = .ofProfile p ∧ p.scalable = true ∧ c.podIsLive pod = true := by
  unfold reserve at h
  split at h
  · rename_i hc
    rw [Bool.and_eq_true] at hc
    cases h
    exact ⟨rfl, rfl, hc⟩
  · cases h

theorem podIsLive_of_put {c : ClusterView} {item : WorkItem} {pod : Key} {e : Entry}
    (h : decide c item = .put pod e) : c.podIsLive pod = true := by
  cases item with
  | observed p key =>
    obtain ⟨rfl, -, -, hlive⟩ := reserve_eq_put h
    exact hlive
  | podStarted key machine =>
    simp only [decide] at h
    split at h
    · cases h
    · split at h
      · split at h
        · obtain ⟨rfl, -, -, hlive⟩ := reserve_eq_put h
          exact hlive
        · cases h
      · cases h
  | boundsChanged p key =>
    simp only [decide] at h
    split at h <;> cases h
  | scalingDisabled key => cases h
  | machinePodGone key => cases h
  | podGone key => cases h

end Reconciler

theorem Ledger.isSome_perform {l : Ledger} {d : Decision} {pod : Key}
    (h : ((l.perform d).get? pod).isSome) :
    (∃ e, d = .put pod e) ∨ (l.get? pod).isSome ∧ d ≠ .drop pod := by
  cases d with
  | keep => exact .inr ⟨h, Decision.noConfusion⟩
  | put key e =>
    by_cases hk : pod = key
    · subst hk
      exact .inl ⟨e, rfl⟩
    · rw [perform, get?_upsert, if_neg hk] at h
      exact .inr ⟨h, Decision.noConfusion⟩
  | replace key e =>
    refine .inr ⟨?_, Decision.noConfusion⟩
    rw [perform, get?_updateExisting] at h
    split at h
    · rename_i hk
      subst hk
      simpa using h
    · exact h
  | drop key =>
    rw [perform, get?_remove] at h
    split at h
    · cases h
    · rename_i hk
      refine .inr ⟨h, ?_⟩
      rintro ⟨⟩
      exact hk rfl

def VirtualMachine.sample (name pod : String) : VirtualMachine :=
  ⟨{ Metadata.empty with
      name := some name, space := some "default",
      labels := some (.ofList [(scalingLabel, "true")]) },
    some ⟨some ⟨some ⟨some (.text "1000m"), some (.text "4000m"), some (.text "1000m")⟩,
      some ⟨some 1, some 4, some 1⟩, some "1"⟩⟩,
    some ⟨some pod⟩⟩

namespace VirtualMachine

def withMaxCpu (max : String) (v : VirtualMachine) : VirtualMachine :=
  { v with
    spec := some ⟨some ⟨some ⟨some (.text "1000m"), some (.text max), some (.text "1000m")⟩,
      some ⟨some 1, some 4, some 1⟩, some "1"⟩⟩ }

def unscaled (v : VirtualMachine) : VirtualMachine :=
  { v with metadata.labels := none }

def inSpace (space : String) (v : VirtualMachine) : VirtualMachine :=
  { v with metadata.space := some space }

end VirtualMachine

end BufferLedger
