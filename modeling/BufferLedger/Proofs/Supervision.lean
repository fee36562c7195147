import BufferLedger.Supervisor
import Mathlib.Data.List.Nodup
import Mathlib.Tactic.Common

/-!
# Runs of the supervisor

What the supervisor sees first decides the outcome and which tasks are left. From then on it waits
for those, one after the other, until they have all ended or the time is up (`Supervision.Stage`).
What has happened can be seen until something is (`Supervisor.Run.can_see`). A run that is not told
of wishes is over as soon as its tasks are started (`Supervisor.Deaf`).
-/

namespace BufferLedger

namespace Supervision

/-! ## Histories -/

def Input.sees : Input → Bool
  | .seeWish | .seeEnd _ => true
  | _ => false

def Input.runs : Input → Bool
  | .run _ => true
  | _ => false

def Input.refusal? : Input → Option String
  | .run (.error cause) => some cause
  | _ => none

def Input.nanos : Input → Nat
  | .passed nanos => nanos
  | _ => 0

def Output.start? : Output → Option BackgroundTask
  | .start task => some task
  | _ => none

def Output.await? : Output → Option BackgroundTask
  | .await task => some task
  | _ => none

def Output.result? : Output → Option Outcome
  | .result outcome => some outcome
  | _ => none

abbrev History := List (Input × List Output)

namespace History

def inputs (h : History) : List Input := h.map Prod.fst

def outputs (h : History) : List Output := h.flatMap Prod.snd

def seenFirst? (h : History) : Option Input := h.inputs.find? Input.sees

def refusal? (h : History) : Option String := h.inputs.head?.bind Input.refusal?

/-- The first run was to be told of wishes to shut down. -/
def Listens (h : History) : Prop := h.refusal? = none

def runs (h : History) : Nat := h.inputs.countP Input.runs

def elapsed (h : History) : Nat := h.inputs.foldl (fun n i => n + i.nanos) 0

def starts (h : History) : List BackgroundTask := h.outputs.filterMap Output.start?

def awaits (h : History) : List BackgroundTask := h.outputs.filterMap Output.await?

def results (h : History) : List Outcome := h.outputs.filterMap Output.result?

section Append

variable (h : History) (i : Input) (outputs : List Output)

theorem inputs_snoc : inputs (h ++ [(i, outputs)]) = h.inputs ++ [i] := by
  simp [inputs]

theorem mem_inputs_snoc {j : Input} (hj : j ∈ h.inputs) :
    j ∈ inputs (h ++ [(i, outputs)]) := by
  rw [inputs_snoc]
  exact List.mem_append_left _ hj

theorem refusal?_snoc (hne : h ≠ []) : refusal? (h ++ [(i, outputs)]) = h.refusal? := by
  cases h with
  | nil => exact absurd rfl hne
  | cons e h => rfl

theorem seenFirst?_snoc :
    seenFirst? (h ++ [(i, outputs)]) = h.seenFirst?.or (if i.sees then some i else none) := by
  rw [seenFirst?, inputs_snoc, List.find?_append, seenFirst?]
  cases hs : i.sees <;> simp [hs]

theorem runs_snoc : runs (h ++ [(i, outputs)]) = h.runs + if i.runs then 1 else 0 := by
  rw [runs, inputs_snoc, List.countP_append, List.countP_singleton, runs]

theorem elapsed_snoc : elapsed (h ++ [(i, outputs)]) = h.elapsed + i.nanos := by
  rw [elapsed, inputs_snoc, List.foldl_append]
  rfl

theorem starts_snoc :
    starts (h ++ [(i, outputs)]) = h.starts ++ outputs.filterMap Output.start? := by
  simp [starts, History.outputs]

theorem awaits_snoc :
    awaits (h ++ [(i, outputs)]) = h.awaits ++ outputs.filterMap Output.await? := by
  simp [awaits, History.outputs]

theorem results_snoc :
    results (h ++ [(i, outputs)]) = h.results ++ outputs.filterMap Output.result? := by
  simp [results, History.outputs]

end Append

end History

end Supervision

namespace Supervisor

open Supervision

/-! ## Steps -/

inductive Move (s : Supervisor) : Input → Step → Prop
  | run {listening} : s.phase = .idle → Move s (.run listening) (s.startAll listening)
  | runAgain {listening o} : s.phase = .returned o →
      Move s (.run listening) (s, [.result (.error .alreadyRun)])
  | wish {tasks} : s.phase = .watching tasks → Move s .wish ({ s with wished := true }, [])
  | lateWish : (∀ tasks, s.phase ≠ .watching tasks) → Move s .wish (s, [])
  | ended {t how} : s.phase ≠ .idle → s.endOf? t = none →
      Move s (.ended t how) ({ s with finished := (t, how) :: s.finished }, [])
  | seeWish {tasks} : s.phase = .watching tasks → s.wished = true →
      Move s .seeWish (s.windDown tasks (.ok ()))
  | seeEnd {tasks index t how} : s.phase = .watching tasks → tasks[index]? = some t →
      s.endOf? t = some how →
      Move s (.seeEnd index) (s.windDown (tasks.eraseIdx index) (.error (.ofEnd how)))
  | joined {t rest left o} : s.phase = .awaiting (t :: rest) left o → (s.endOf? t).isSome →
      Move s .joined (s.await rest left o)
  | passed {tasks left o nanos} : s.phase = .awaiting tasks left o → nanos ≤ left →
      Move s (.passed nanos) ({ s with phase := .awaiting tasks (left - nanos) o }, [])
  | timeUp {tasks o} : s.phase = .awaiting tasks 0 o →
      Move s .timeUp ({ s with phase := .returned o }, [.result o])

theorem move_of_step {s : Supervisor} {i : Input} {step : Step} (h : s.step i = some step) :
    Move s i step := by
  cases i with
  | run listening =>
    simp only [Supervisor.step] at h
    split at h
    · cases h
      exact .run ‹_›
    · cases h
      exact .runAgain ‹_›
    · cases h
  | wish =>
    simp only [Supervisor.step] at h
    split at h
    · cases h
      exact .wish ‹_›
    · cases h
      exact .lateWish ‹_›
  | ended t how =>
    simp only [Supervisor.step] at h
    split at h
    · cases h
    · split at h
      · cases h
      · cases h
        exact .ended ‹_› (Option.not_isSome_iff_eq_none.1 ‹_›)
  | seeWish =>
    simp only [Supervisor.step] at h
    split at h
    · cases h
      exact .seeWish ‹_› ‹_›
    · cases h
  | seeEnd index =>
    simp only [Supervisor.step] at h
    split at h
    · obtain ⟨how, hhow, rfl⟩ := Option.map_eq_some_iff.1 h
      obtain ⟨t, ht, hend⟩ := Option.bind_eq_some_iff.1 hhow
      exact .seeEnd ‹_› ht hend
    · cases h
  | joined =>
    simp only [Supervisor.step] at h
    split at h
    · split at h
      · cases h
        exact .joined ‹_› ‹_›
      · cases h
    · cases h
  | passed nanos =>
    simp only [Supervisor.step] at h
    split at h
    · split at h
      · cases h
        exact .passed ‹_› ‹_›
      · cases h
    · cases h
  | timeUp =>
    simp only [Supervisor.step] at h
    split at h
    · cases h
      exact .timeUp ‹_›
    · cases h

section Await

variable {tasks : List BackgroundTask} {left : Nat} {o : Outcome} {s : Supervisor}

theorem finished_await : (s.await tasks left o).1.finished = s.finished := by
  cases tasks <;> rfl

theorem timeout_await : (s.await tasks left o).1.timeout = s.timeout := by
  cases tasks <;> rfl

theorem await_not_watching (others : List BackgroundTask) :
    (s.await tasks left o).1.phase ≠ .watching others := by
  cases tasks <;> simp [await]

theorem starts_await : (s.await tasks left o).2.filterMap Output.start? = [] := by
  cases tasks <;> rfl

theorem results_await :
    (s.await tasks left o).2.filterMap Output.result? =
      (s.await tasks left o).1.outcome?.toList := by
  cases tasks <;> rfl

end Await

theorem timeout_of_move {s : Supervisor} {i : Input} {step : Step} (hmove : Move s i step) :
    step.1.timeout = s.timeout := by
  cases hmove with
  | @run listening _ => cases listening <;> rfl
  | seeWish _ _ | seeEnd _ _ _ | joined _ _ => exact timeout_await
  | _ => rfl

theorem stop_mem_of_move {s : Supervisor} {i : Input} {step : Step} (hmove : Move s i step) :
    .stop ∈ step.2 ↔ i.sees = true := by
  cases hmove with
  | @run listening _ => cases listening <;> simp [startAll, Input.sees]
  | seeWish _ _ | seeEnd _ _ _ => exact ⟨fun _ => rfl, fun _ => List.mem_cons_self ..⟩
  | @joined t rest left o _ _ => cases rest <;> simp [await, Input.sees]
  | _ => simp [Input.sees]

/-! ## Runs -/

inductive Run (timeout : Duration) : History → Supervisor → Prop
  | start {listening s outputs} : (idle timeout).step (.run listening) = some (s, outputs) →
      Run timeout [(.run listening, outputs)] s
  | step {h s i s' outputs} : Run timeout h s → s.step i = some (s', outputs) →
      Run timeout (h ++ [(i, outputs)]) s'

end Supervisor

namespace Supervision

/-- What was seen first makes the outcome and leaves these tasks. -/
inductive Decided (h : History) : List BackgroundTask → Outcome → Prop
  | wish : h.seenFirst? = some .seeWish → Decided h BackgroundTask.all (.ok ())
  | ended {index t how} : h.seenFirst? = some (.seeEnd index) →
      BackgroundTask.all[index]? = some t → .ended t how ∈ h.inputs →
      Decided h (BackgroundTask.all.eraseIdx index) (.error (.ofEnd how))

/-- How a run that is told of wishes stands in each phase. -/
inductive Stage (timeout : Nat) (h : History) : Phase → Prop
  | watching : h.seenFirst? = none → h.awaits = [] → h.elapsed = 0 →
      Stage timeout h (.watching BackgroundTask.all)
  | awaiting {t rest left o others} : Decided h others o → h.awaits ++ rest = others →
      h.elapsed + left = timeout → Stage timeout h (.awaiting (t :: rest) left o)
  | returned {o others} : Decided h others o → h.awaits <+: others → h.elapsed ≤ timeout →
      Stage timeout h (.returned o)

section Stages

variable {h : History} {others : List BackgroundTask} {o : Outcome}

theorem Decided.snoc (hd : Decided h others o) (i : Input) (outputs : List Output) :
    Decided (h ++ [(i, outputs)]) others o := by
  cases hd with
  | wish hseen =>
    apply Decided.wish
    rw [History.seenFirst?_snoc, hseen, Option.some_or]
  | ended hseen ht hend =>
    refine .ended ?_ ht (History.mem_inputs_snoc h i outputs hend)
    rw [History.seenFirst?_snoc, hseen, Option.some_or]

theorem Decided.isSome_seenFirst? (hd : Decided h others o) : h.seenFirst?.isSome := by
  cases hd with
  | wish hseen => simp [hseen]
  | ended hseen _ _ => simp [hseen]

theorem Decided.not_mem {index : Nat} {t : BackgroundTask} (hd : Decided h others o)
    (hseen : h.seenFirst? = some (.seeEnd index)) (ht : BackgroundTask.all[index]? = some t) :
    t ∉ others := by
  cases hd with
  | wish hwish =>
    rw [hwish] at hseen
    cases hseen
  | ended hend _ _ =>
    rw [hend] at hseen
    cases hseen
    intro hmem
    obtain ⟨i, hne, hi⟩ := List.mem_eraseIdx_iff_getElem?.1 hmem
    obtain ⟨hlt, -⟩ := List.getElem?_eq_some_iff.1 hi
    exact hne ((List.getElem?_inj hlt (by decide)).1 (hi.trans ht.symm))

theorem Decided.nodup (hd : Decided h others o) : others.Nodup := by
  have hall : BackgroundTask.all.Nodup := by decide
  cases hd with
  | wish _ => exact hall
  | ended _ _ _ => exact hall.sublist (List.eraseIdx_sublist ..)

theorem Stage.awaits {timeout : Nat} {phase : Phase} (hstage : Stage timeout h phase) :
    h.elapsed ≤ timeout ∧
      (h.awaits = [] ∨ ∃ others o, Decided h others o ∧ h.awaits <+: others) := by
  cases hstage with
  | watching _ hnone hzero => exact ⟨by omega, .inl hnone⟩
  | awaiting hd hleft htime => exact ⟨by omega, .inr ⟨_, _, hd, _, hleft⟩⟩
  | returned hd hleft htime => exact ⟨htime, .inr ⟨_, _, hd, hleft⟩⟩

theorem Stage.idle {timeout : Nat} {phase : Phase} {i : Input} {outputs : List Output}
    (hstage : Stage timeout h phase) (hsees : i.sees = false) (hnanos : i.nanos = 0)
    (hawaits : outputs.filterMap Output.await? = []) :
    Stage timeout (h ++ [(i, outputs)]) phase := by
  have helapsed : History.elapsed (h ++ [(i, outputs)]) = h.elapsed := by
    rw [History.elapsed_snoc, hnanos, Nat.add_zero]
  have hsame : History.awaits (h ++ [(i, outputs)]) = h.awaits := by
    rw [History.awaits_snoc, hawaits, List.append_nil]
  cases hstage with
  | watching hseen hnone hzero =>
    refine .watching ?_ (hsame.trans hnone) (helapsed.trans hzero)
    simp [History.seenFirst?_snoc, hseen, hsees]
  | awaiting hd hleft htime =>
    exact .awaiting (hd.snoc ..) (by rwa [hsame]) (by rwa [helapsed])
  | returned hd hleft htime =>
    exact .returned (hd.snoc ..) (by rwa [hsame]) (by rwa [helapsed])

theorem Stage.await {timeout left : Nat} {tasks : List BackgroundTask}
    (previous : List BackgroundTask) (s : Supervisor) (hd : Decided h (previous ++ tasks) o)
    (hawaits : h.awaits = previous ++ (s.await tasks left o).2.filterMap Output.await?)
    (htime : h.elapsed + left = timeout) : Stage timeout h (s.await tasks left o).1.phase := by
  cases tasks with
  | nil =>
    refine .returned hd ?_ (by omega)
    rw [hawaits]
    exact (List.prefix_append_right_inj previous).2 List.nil_prefix
  | cons t rest =>
    refine .awaiting hd ?_ htime
    rw [hawaits]
    exact (List.append_cons previous t rest).symm

theorem Stage.windDown {i : Input} (s : Supervisor) (hnone : h.awaits = [])
    (hzero : h.elapsed = 0) (hnanos : i.nanos = 0)
    (hd : Decided (h ++ [(i, (s.windDown others o).2)]) others o) :
    Stage s.timeout.toNanos (h ++ [(i, (s.windDown others o).2)])
      (s.windDown others o).1.phase := by
  refine Stage.await [] s hd ?_ ?_
  · rw [History.awaits_snoc, hnone]
    rfl
  · rw [History.elapsed_snoc, hzero, hnanos]
    omega

end Stages

end Supervision

namespace Supervisor

open Supervision

variable {timeout : Duration} {h : History} {s s' : Supervisor}

theorem Run.timeout_eq (run : Run timeout h s) : s.timeout = timeout := by
  induction run with
  | start hstep => exact timeout_of_move (move_of_step hstep)
  | step _ hstep ih => rw [timeout_of_move (move_of_step hstep), ih]

theorem stage_of_move {i : Input} {step : Step} (hmove : Move s i step)
    (hstage : Stage s.timeout.toNanos h s.phase)
    (hends : ∀ t how, s.endOf? t = some how → .ended t how ∈ h.inputs) :
    Stage s.timeout.toNanos (h ++ [(i, step.2)]) step.1.phase := by
  cases hmove with
  | run hp =>
    rw [hp] at hstage
    cases hstage
  | runAgain _ | wish _ | lateWish _ | ended _ _ => exact hstage.idle rfl rfl rfl
  | seeWish hp _ =>
    rw [hp] at hstage
    cases hstage with
    | watching hseen hnone hzero =>
      refine Stage.windDown s hnone hzero rfl (.wish ?_)
      rw [History.seenFirst?_snoc, hseen]
      rfl
  | @seeEnd tasks index t how hp ht hend =>
    rw [hp] at hstage
    cases hstage with
    | watching hseen hnone hzero =>
      have hmem := History.mem_inputs_snoc h (.seeEnd index)
        (s.windDown (BackgroundTask.all.eraseIdx index) (.error (.ofEnd how))).2 (hends t how hend)
      refine Stage.windDown s hnone hzero rfl (.ended ?_ ht hmem)
      rw [History.seenFirst?_snoc, hseen]
      rfl
  | joined hp _ =>
    rw [hp] at hstage
    cases hstage with
    | awaiting hd hleft htime =>
      subst hleft
      refine Stage.await h.awaits s (hd.snoc ..) (History.awaits_snoc ..) ?_
      simpa only [History.elapsed_snoc, Input.nanos, Nat.add_zero] using htime
  | passed hp hle =>
    rw [hp] at hstage
    cases hstage with
    | awaiting hd hleft htime =>
      refine .awaiting (hd.snoc ..) ?_ ?_
      · simpa [History.awaits_snoc] using hleft
      · rw [History.elapsed_snoc, Input.nanos]
        omega
  | timeUp hp =>
    rw [hp] at hstage
    cases hstage with
    | awaiting hd hleft htime =>
      refine .returned (hd.snoc ..) ?_ ?_
      · rw [History.awaits_snoc, ← hleft]
        exact (List.prefix_append_right_inj h.awaits).2 List.nil_prefix
      · simp only [History.elapsed_snoc, Input.nanos]
        omega

theorem endOf?_of_move {i : Input} {step : Step} (hmove : Move s i step) (t : BackgroundTask)
    (how : TaskEnd) :
    step.1.endOf? t = some how ↔ s.endOf? t = some how ∨ i = .ended t how := by
  have hkept (hi : i ≠ .ended t how) (hfinished : step.1.finished = s.finished) :
      step.1.endOf? t = some how ↔ s.endOf? t = some how ∨ i = .ended t how := by
    rw [endOf?, hfinished, or_iff_left hi, endOf?]
  cases hmove with
  | @ended u last _ hnone =>
    rw [endOf?] at hnone
    rw [endOf?, endOf?, List.lookup_cons]
    by_cases ht : t = u
    -- A task ends once, so nothing is known of it yet.
    · subst ht
      simp [hnone]
    · simp [beq_eq_false_iff_ne.2 ht, Ne.symm ht]
  | @run listening _ => exact hkept (by simp) (by cases listening <;> rfl)
  | seeWish _ _ | seeEnd _ _ _ | joined _ _ => exact hkept (by simp) finished_await
  | _ => exact hkept (by simp) rfl

theorem Run.endOf?_eq_some (run : Run timeout h s) {t : BackgroundTask} {how : TaskEnd} :
    s.endOf? t = some how ↔ .ended t how ∈ h.inputs := by
  induction run with
  | start hstep =>
    rw [endOf?_of_move (move_of_step hstep)]
    simp [History.inputs, idle, endOf?]
  | step _ hstep ih =>
    rw [endOf?_of_move (move_of_step hstep), ih, History.inputs_snoc, List.mem_append,
      List.mem_singleton, eq_comm (a := Input.ended t how)]

theorem Run.refusal?_snoc (run : Run timeout h s) (i : Input) (outputs : List Output) :
    History.refusal? (h ++ [(i, outputs)]) = h.refusal? := by
  refine History.refusal?_snoc h i outputs ?_
  cases run <;> simp

theorem Run.stage (run : Run timeout h s) (listens : h.Listens) :
    Stage timeout.toNanos h s.phase := by
  induction run with
  | @start listening s outputs hstep =>
    cases listening with
    | ok u =>
      cases hstep
      exact .watching rfl rfl rfl
    | error cause => cases listens
  | step run hstep ih =>
    have hmove := move_of_step hstep
    have hstage := ih ((run.refusal?_snoc ..).symm.trans listens)
    rw [← run.timeout_eq] at hstage ⊢
    exact stage_of_move hmove hstage fun t how => run.endOf?_eq_some.1

/-- The run was not told of wishes and is over. Nothing is seen and nothing is waited for. -/
structure Deaf (h : History) (s : Supervisor) (cause : String) : Prop where
  phase : s.phase = .returned (.error (.notListening cause))
  unseen : h.seenFirst? = none
  awaits : h.awaits = []
  elapsed : h.elapsed = 0

theorem Deaf.snoc {cause : String} (hdeaf : Deaf h s cause) {i : Input} {outputs : List Output}
    (hphase : s'.phase = s.phase) (hsees : i.sees = false) (hnanos : i.nanos = 0)
    (hawaits : outputs.filterMap Output.await? = []) :
    Deaf (h ++ [(i, outputs)]) s' cause := by
  refine ⟨hphase.trans hdeaf.phase, ?_, ?_, ?_⟩
  · simp [History.seenFirst?_snoc, hdeaf.unseen, hsees]
  · rw [History.awaits_snoc, hdeaf.awaits, hawaits, List.append_nil]
  · rw [History.elapsed_snoc, hdeaf.elapsed, hnanos]

theorem Deaf.move {cause : String} {i : Input} {step : Step} (hdeaf : Deaf h s cause)
    (hmove : Move s i step) : Deaf (h ++ [(i, step.2)]) step.1 cause := by
  have hphase := hdeaf.phase
  cases hmove with
  | runAgain _ | lateWish _ | ended _ _ => exact hdeaf.snoc rfl rfl rfl rfl
  | run hp | wish hp | seeWish hp _ | seeEnd hp _ _ | joined hp _ | passed hp _ | timeUp hp =>
    rw [hphase] at hp
    cases hp

theorem Run.deaf (run : Run timeout h s) {cause : String} (hrefused : h.refusal? = some cause) :
    Deaf h s cause := by
  induction run with
  | @start listening s outputs hstep =>
    cases listening with
    | ok u => cases hrefused
    | error cause' =>
      cases hrefused
      cases hstep
      exact ⟨rfl, rfl, rfl, rfl⟩
  | step run hstep ih =>
    exact (ih ((run.refusal?_snoc ..).symm.trans hrefused)).move (move_of_step hstep)

theorem wished_of_move {i : Input} {step : Step} {tasks : List BackgroundTask}
    (hmove : Move s i step) (hp : step.1.phase = .watching tasks) (hidle : s.phase ≠ .idle) :
    s.phase = .watching tasks ∧ (step.1.wished = true ↔ s.wished = true ∨ i = .wish) := by
  cases hmove with
  | run hstart => exact absurd hstart hidle
  | runAgain _ => exact ⟨hp, by simp⟩
  | wish _ => exact ⟨hp, by simp⟩
  | lateWish hlate => exact absurd hp (hlate tasks)
  | ended _ _ => exact ⟨hp, by simp⟩
  | seeWish _ _ | seeEnd _ _ _ | joined _ _ => exact absurd hp (await_not_watching tasks)
  | passed _ _ | timeUp _ => cases hp

theorem Run.not_idle (run : Run timeout h s) : s.phase ≠ .idle := by
  intro hidle
  cases hrefusal : h.refusal? with
  | none =>
    have hstage := run.stage hrefusal
    rw [hidle] at hstage
    cases hstage
  | some cause =>
    have hphase := (run.deaf hrefusal).phase
    rw [hidle] at hphase
    cases hphase

theorem Run.wished_iff (run : Run timeout h s) {tasks : List BackgroundTask}
    (hp : s.phase = .watching tasks) : s.wished = true ↔ .wish ∈ h.inputs := by
  induction run with
  | @start listening s outputs hstep =>
    cases listening <;> cases hstep <;> simp [History.inputs, idle]
  | step run hstep ih =>
    obtain ⟨hbefore, hwished⟩ := wished_of_move (move_of_step hstep) hp run.not_idle
    rw [hwished, ih hbefore, History.inputs_snoc, List.mem_append, List.mem_singleton,
      eq_comm (a := Input.wish)]

/-! ## What a run has come to -/

theorem Run.watching (run : Run timeout h s) (listens : h.Listens)
    (hseen : h.seenFirst? = none) : s.phase = .watching BackgroundTask.all := by
  have hstage := run.stage listens
  generalize s.phase = phase at hstage ⊢
  cases hstage with
  | watching => rfl
  | awaiting hd | returned hd =>
    have hsome := hd.isSome_seenFirst?
    rw [hseen] at hsome
    cases hsome

theorem Run.can_see (run : Run timeout h s) (listens : h.Listens) (hseen : h.seenFirst? = none) :
    (.wish ∈ h.inputs → (s.step .seeWish).isSome) ∧
    ∀ t how, .ended t how ∈ h.inputs →
      ∃ index, BackgroundTask.all[index]? = some t ∧ (s.step (.seeEnd index)).isSome := by
  have hp := run.watching listens hseen
  constructor
  · intro hwish
    simp [Supervisor.step, hp, (run.wished_iff hp).2 hwish]
  · intro t how hend
    obtain ⟨index, hindex⟩ := List.getElem?_of_mem t.mem_all
    exact ⟨index, hindex, by simp [Supervisor.step, hp, hindex, run.endOf?_eq_some.2 hend]⟩

theorem step_passed {tasks : List BackgroundTask} {left : Nat} {o : Outcome}
    (hp : s.phase = .awaiting tasks left o) :
    s.step (.passed left) = some ({ s with phase := .awaiting tasks 0 o }, []) := by
  simp [Supervisor.step, hp]

theorem Run.listens_of_seen (run : Run timeout h s) (hseen : h.seenFirst?.isSome) :
    h.Listens := by
  refine Option.eq_none_iff_forall_ne_some.2 fun cause hrefused => ?_
  rw [(run.deaf hrefused).unseen] at hseen
  cases hseen

theorem Run.awaiting (run : Run timeout h s) (hseen : h.seenFirst?.isSome)
    (hnone : s.outcome? = none) : ∃ tasks left o, s.phase = .awaiting tasks left o := by
  have hstage := run.stage (run.listens_of_seen hseen)
  rw [outcome?] at hnone
  generalize s.phase = phase at hstage hnone ⊢
  cases hstage with
  | watching hunseen =>
    rw [hunseen] at hseen
    cases hseen
  | awaiting => exact ⟨_, _, _, rfl⟩
  | returned => cases hnone

theorem step_run_of_returned (listening : Listening) (hsome : s.outcome?.isSome) :
    s.step (.run listening) = some (s, [.result (.error .alreadyRun)]) := by
  obtain ⟨timeout, phase, wished, finished⟩ := s
  cases phase with
  | returned o => rfl
  | idle | watching tasks | awaiting tasks left o => cases hsome

theorem Run.outcome (run : Run timeout h s) (listens : h.Listens) {o : Outcome}
    (ho : s.outcome? = some o) : ∃ others, Decided h others o := by
  have hstage := run.stage listens
  rw [outcome?] at ho
  generalize s.phase = phase at hstage ho
  cases hstage with
  | watching | awaiting => cases ho
  | returned hd =>
    cases ho
    exact ⟨_, hd⟩

theorem Run.awaits (run : Run timeout h s) :
    h.elapsed ≤ timeout.toNanos ∧ h.awaits.Nodup ∧
    ∀ index t, h.seenFirst? = some (.seeEnd index) → BackgroundTask.all[index]? = some t →
      t ∉ h.awaits := by
  cases hrefusal : h.refusal? with
  | none =>
    obtain ⟨htime, hnone | ⟨others, o, hd, hleft⟩⟩ := (run.stage hrefusal).awaits
    · simp [hnone, htime]
    · refine ⟨htime, hd.nodup.sublist hleft.sublist, fun index t hseen ht hmem => ?_⟩
      exact hd.not_mem hseen ht (hleft.subset hmem)
  | some cause =>
    have hdeaf := run.deaf hrefusal
    simp [hdeaf.elapsed, hdeaf.awaits]

/-! ## Orders to run -/

theorem starts_of_move {i : Input} {step : Step} (hmove : Move s i step) (hidle : s.phase ≠ .idle) :
    step.2.filterMap Output.start? = [] := by
  cases hmove with
  | run hstart => exact absurd hstart hidle
  | seeWish _ _ | seeEnd _ _ _ | joined _ _ => exact starts_await
  | _ => rfl

theorem Run.starts (run : Run timeout h s) : h.starts = BackgroundTask.all := by
  induction run with
  | @start listening s outputs hstep => cases listening <;> cases hstep <;> rfl
  | step run hstep ih =>
    have hnone := starts_of_move (move_of_step hstep) run.not_idle
    rw [History.starts_snoc, hnone, List.append_nil, ih]

theorem results_of_move {i : Input} {step : Step} (hmove : Move s i step)
    (hidle : s.phase ≠ .idle) :
    if i.runs then s.outcome?.isSome ∧ step = (s, [.result (.error .alreadyRun)])
    else
      step.1.outcome? = s.outcome? ∧ step.2.filterMap Output.result? = [] ∨
        s.outcome? = none ∧ step.2.filterMap Output.result? = step.1.outcome?.toList := by
  cases hmove with
  | run hstart => exact absurd hstart hidle
  | runAgain hp => exact ⟨by rw [outcome?, hp]; rfl, rfl⟩
  | wish _ | lateWish _ | ended _ _ => exact .inl ⟨rfl, rfl⟩
  | seeWish hp _ | seeEnd hp _ _ | joined hp _ => exact .inr ⟨by rw [outcome?, hp], results_await⟩
  | passed hp _ | timeUp hp => exact .inr ⟨by rw [outcome?, hp], rfl⟩

theorem Run.results (run : Run timeout h s) :
    ∃ n, h.runs = n + 1 ∧
      h.results = s.outcome?.toList ++ List.replicate n (.error .alreadyRun) ∧
      (s.outcome? = none → n = 0) := by
  induction run with
  | @start listening s outputs hstep =>
    cases listening <;> cases hstep <;> exact ⟨0, rfl, rfl, fun _ => rfl⟩
  | @step h s i s' outputs run hstep ih =>
    obtain ⟨n, hruns, hresults, hn⟩ := ih
    have hmove := results_of_move (move_of_step hstep) run.not_idle
    rw [History.runs_snoc, History.results_snoc, hruns, hresults]
    split at hmove
    · obtain ⟨hsome, hstep⟩ := hmove
      cases hstep
      refine ⟨n + 1, by simp [*], ?_, fun hnone => ?_⟩
      · rw [List.append_assoc, List.replicate_succ']
        rfl
      · simp [hnone] at hsome
    · rcases hmove with ⟨hsame, hnone⟩ | ⟨hbefore, hresult⟩
      · refine ⟨n, by simp [*], ?_, fun hafter => hn (hsame ▸ hafter)⟩
        rw [hsame, hnone, List.append_nil]
      · refine ⟨0, by simp [*], ?_, fun _ => rfl⟩
        rw [hbefore, hn hbefore, hresult]
        simp

end Supervisor

end BufferLedger
