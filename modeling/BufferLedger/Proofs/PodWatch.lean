import Mathlib.Data.List.Nodup
import BufferLedger.Proofs.EngineRun
import BufferLedger.Proofs.PodEnd

/-!
# The end of a pod as its watch sees it

A pod's end is the step of the pod watch after which the pod is no longer there and live. Such a
step should queue one item that reports the end, and no other step should queue one. The main
statement says exactly when a step does so (`end_queued_once_iff`): always, except for a watched
deletion whose object does not agree with the copy on whether the pod had completed.
-/

namespace BufferLedger

open ClusterObject (key version)

section Objects

variable {α : Type} [ClusterObject α]

def Coherent (objects : List α) : Prop :=
  ∀ x ∈ objects, ∀ y ∈ objects, key x = key y → version x = version y → x = y

theorem coherent_of_versions {objects : List α} (h : (objects.map version).Nodup) :
    Coherent objects :=
  fun _ hx _ hy _ hv => List.inj_on_of_nodup_map h hx hy hv

theorem Input.mem_changeAt {k : Key} {i : Input α} {old : Option α} {x : α}
    (h : (i.changeAt k old).1 = some x) : x ∈ i.objects ∨ old = some x := by
  have heffect := i.effect k old
  generalize i.changeAt k old = r at heffect h
  cases heffect with
  | add hx _ _ | update hx _ _ | same hx _ _ _ =>
    cases h
    exact .inl hx
  | missing _ _ _ | deleted _ _ => cases h
  | untouched => exact .inr h

theorem Engine.Run.mem_objects {config : WatchConfig} {mode : StartMode}
    {history : Engine.History α} {w : Engine α} (run : Engine.Run config mode history w)
    (distinct : ∀ i ∈ history.inputs, i.Distinct) {k : Key} {x : α}
    (h : w.collection.objects.get? k = some x) : x ∈ history.inputs.flatMap Input.objects := by
  induction run with
  | start =>
    rw [start_collection] at h
    cases h
  | @step history w i w' outputs run hstep ih =>
    obtain ⟨hbefore, hi⟩ := History.forall_inputs_append.1 distinct
    rw [(step_change hstep).1, (Input.change_at (run.wellKeyed hbefore) hi k).1] at h
    rw [History.inputs_append, List.flatMap_append, List.mem_append]
    rcases Input.mem_changeAt h with hx | hold
    · exact .inr (by simpa using hx)
    · exact .inl (ih hbefore hold)

end Objects

/-! ## One key -/

def Pod.live : Option Pod → Bool
  | some p => !p.completed
  | none => false

theorem Input.end_told {pod : Key} {i : Input Pod} {old : Option Pod}
    (same : ∀ x ∈ i.objects, ∀ o, old = some o → key x = pod → version o = version x → o = x)
    (hdeleted : ∀ p, i = .received (.ok (.deleted p)) → key p ≠ pod) :
    (i.changeAt pod old).2.countP Call.tellsEnd =
      if Pod.live old && !Pod.live (i.changeAt pod old).1 then 1 else 0 := by
  have heffect := i.effect pod old
  generalize i.changeAt pod old = r at heffect
  cases heffect with
  | add hx hk hnone =>
    subst hnone
    rfl
  | update hx hk hsome =>
    subst hsome
    simp [Call.tellsEnd, Pod.live, List.countP_cons]
  | same hx hk hsome hv =>
    obtain rfl := same _ hx _ hsome hk hv
    subst hsome
    simp
  | missing hlist hlost hsome =>
    subst hsome
    simp [Call.tellsEnd, Pod.live, List.countP_cons]
  | deleted hevent hk => exact absurd hk (hdeleted _ hevent)
  | untouched => simp

theorem Input.end_told_iff {pod : Key} {i : Input Pod} {old : Option Pod}
    (same : ∀ x ∈ i.objects, ∀ o, old = some o → key x = pod → version o = version x → o = x) :
    (i.changeAt pod old).2.countP Call.tellsEnd =
        (if Pod.live old && !Pod.live (i.changeAt pod old).1 then 1 else 0) ↔
      ¬ ∃ p, i = .received (.ok (.deleted p)) ∧ key p = pod ∧ p.completed = Pod.live old := by
  by_cases hd : ∃ p, i = .received (.ok (.deleted p)) ∧ key p = pod
  · obtain ⟨p, rfl, hk⟩ := hd
    have hdisagree : (∃ q, Input.received (.ok (.deleted p)) = .received (.ok (.deleted q)) ∧
        key q = pod ∧ q.completed = Pod.live old) ↔ p.completed = Pod.live old := by
      constructor
      · rintro ⟨q, hq, -, hc⟩
        cases hq
        exact hc
      · exact fun hc => ⟨p, rfl, hk, hc⟩
    rw [hdisagree]
    -- A watched deletion is judged by the phase that it carries, not by the copy.
    cases hp : p.completed <;> cases hl : Pod.live old <;>
      simp [changeAt, hk, Call.tellsEnd, hp, Pod.live]
  · have hagree := end_told same fun p hi hk => hd ⟨p, hi, hk⟩
    constructor
    · rintro - ⟨p, hi, hk, -⟩
      exact hd ⟨p, hi, hk⟩
    · intro _
      exact hagree

/-! ## Runs -/

def queued (outputs : List (Output Pod)) : List WorkItem :=
  (callsOf outputs).flatMap Pod.work

def Engine.holdsLive (w : Engine Pod) (pod : Key) : Bool :=
  Pod.live (w.collection.objects.get? pod)

/-- A step queues one report for each pod that it ends and none for any other, unless it is the
deletion of a pod that has completed by the copy and not by its object, or the other way round. -/
theorem end_queued_once_iff {config : WatchConfig} {mode : StartMode}
    {history : Engine.History Pod} {w w' : Engine Pod} {i : Input Pod}
    {outputs : List (Output Pod)} (run : Engine.Run config mode history w)
    (hstep : w.step i = some (w', outputs)) (distinct : ∀ j ∈ history.inputs ++ [i], j.Distinct)
    (coherent : Coherent ((history.inputs ++ [i]).flatMap Input.objects)) (pod : Key) :
    (queued outputs).countP (·.ends pod) =
        (if w.holdsLive pod && !w'.holdsLive pod then 1 else 0) ↔
      ¬ ∃ p, i = .received (.ok (.deleted p)) ∧ key p = pod ∧ p.completed = w.holdsLive pod := by
  have hbefore : ∀ j ∈ history.inputs, j.Distinct :=
    fun j hj => distinct j (List.mem_append_left _ hj)
  have hi := distinct i (List.mem_append_right _ (List.mem_singleton_self i))
  obtain ⟨hcollection, hcalls⟩ := Engine.step_change hstep
  obtain ⟨hobject, habout⟩ := Input.change_at (run.wellKeyed hbefore) hi pod
  have same : ∀ x ∈ i.objects, ∀ o, w.collection.objects.get? pod = some o → key x = pod →
      version o = version x → o = x := by
    intro x hx o ho hk hv
    refine coherent o ?_ x ?_ ((run.wellKeyed hbefore pod o ho).trans hk.symm) hv
    · rw [List.flatMap_append, List.mem_append]
      exact .inl (run.mem_objects hbefore ho)
    · simpa using .inr hx
  have hcount : (queued outputs).countP (·.ends pod) =
      (i.changeAt pod (w.collection.objects.get? pod)).2.countP Call.tellsEnd := by
    rw [queued, Pod.countP_ends_calls, hcalls, habout]
  rw [hcount, Engine.holdsLive, Engine.holdsLive, hcollection, hobject]
  exact Input.end_told_iff same

def sampleOpening : List (Input Pod) :=
  [.listed (.ok ⟨some "1", [.sample "a" "1" "Running"]⟩), .opened (.ok ())]

theorem end_queued_sample :
    ∃ history w w' outputs, Engine.Run (.standard "pods") .waiting history w ∧
      w.step (.received (.ok (.modified (.sample "a" "2" "Succeeded")))) = some (w', outputs) ∧
      w.holdsLive ⟨"default", "a"⟩ = true ∧ w'.holdsLive ⟨"default", "a"⟩ = false ∧
      (queued outputs).countP (·.ends ⟨"default", "a"⟩) = 1 := by
  obtain ⟨history, w, hf⟩ : ∃ history w,
      (Engine.start (.standard "pods") .waiting).1.follow sampleOpening = some (history, w) :=
    ⟨_, _, rfl⟩
  have run := Engine.Run.start.follow hf
  have hinputs := Engine.inputs_of_follow hf
  obtain ⟨w', outputs, hstep, hlive, hgone⟩ : ∃ w' outputs,
      w.step (.received (.ok (.modified (.sample "a" "2" "Succeeded")))) = some (w', outputs) ∧
      w.holdsLive ⟨"default", "a"⟩ = true ∧ w'.holdsLive ⟨"default", "a"⟩ = false := by
    cases hf
    exact ⟨_, _, rfl, by decide, by decide⟩
  have distinct : ∀ j ∈ sampleOpening ++
      [.received (.ok (.modified (.sample "a" "2" "Succeeded")))], j.Distinct := by
    simp [sampleOpening, Input.Distinct]
  have coherent : Coherent [Pod.sample "a" "1" "Running", .sample "a" "2" "Succeeded"] :=
    coherent_of_versions (by decide)
  have hcount := (end_queued_once_iff run hstep (hinputs ▸ distinct) (hinputs ▸ coherent)
    ⟨"default", "a"⟩).2 (by rintro ⟨p, hp, -⟩; cases hp)
  rw [hlive, hgone] at hcount
  exact ⟨history, w, w', outputs, run, hstep, hlive, hgone, hcount⟩

/-- A pod can end without a report: its deletion carries the phase that no update brought. -/
theorem completed_deletion_unreported :
    ∃ history w w' outputs i, Engine.Run (.standard "pods") .waiting history w ∧
      i = .received (.ok (.deleted (.sample "a" "2" "Succeeded"))) ∧
      w.step i = some (w', outputs) ∧ (∀ j ∈ history.inputs ++ [i], j.Distinct) ∧
      Coherent ((history.inputs ++ [i]).flatMap Input.objects) ∧
      w.holdsLive ⟨"default", "a"⟩ = true ∧ w'.holdsLive ⟨"default", "a"⟩ = false ∧
      queued outputs = [] := by
  obtain ⟨history, w, hf⟩ : ∃ history w,
      (Engine.start (.standard "pods") .waiting).1.follow sampleOpening = some (history, w) :=
    ⟨_, _, rfl⟩
  have run := Engine.Run.start.follow hf
  have hinputs := Engine.inputs_of_follow hf
  have distinct : ∀ j ∈ sampleOpening ++ [.received (.ok (.deleted (.sample "a" "2" "Succeeded")))],
      j.Distinct := by
    simp [sampleOpening, Input.Distinct]
  have coherent : Coherent [Pod.sample "a" "1" "Running", .sample "a" "2" "Succeeded"] :=
    coherent_of_versions (by decide)
  obtain ⟨w', outputs, hstep, hlive, hgone, hnone⟩ : ∃ w' outputs,
      w.step (.received (.ok (.deleted (.sample "a" "2" "Succeeded")))) = some (w', outputs) ∧
      w.holdsLive ⟨"default", "a"⟩ = true ∧ w'.holdsLive ⟨"default", "a"⟩ = false ∧
      queued outputs = [] := by
    cases hf
    exact ⟨_, _, rfl, by decide, by decide, rfl⟩
  exact ⟨history, w, w', outputs, _, run, rfl, hstep, hinputs ▸ distinct, hinputs ▸ coherent, hlive,
    hgone, hnone⟩

end BufferLedger
