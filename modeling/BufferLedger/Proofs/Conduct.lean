import BufferLedger.Proofs.FirstList
import BufferLedger.Proofs.Stopping
import BufferLedger.Proofs.Supervision

/-!
# The application under its supervisor

Whatever the watches and the reconciler do meanwhile, the application does as the supervisor says.
So the outcome of its run and the tasks it waits for are those of the supervisor, and once the
supervisor has seen something, and only then, all tasks are told to stop
(`Application.Conduct.supervised`). The application that is rehearsed behaves in such a way
(`Application.Conduct.advance`).
-/

namespace BufferLedger

namespace Rehearsal

variable {α : Type} [ClusterObject α]

theorem cancelled_feed {s : Rehearsal α} (i : Input α)
    (h : s.engine.cancelled = true ∨ i = .cancel) : (s.feed i).engine.cancelled = true := by
  cases hstep : s.engine.step i with
  | none =>
    rcases h with h | rfl
    · rw [feed, hstep]
      exact h
    · cases hstep
  | some step =>
    obtain ⟨w, outputs⟩ := step
    rw [feed_of_step hstep, note_engine]
    exact (Engine.cancelled_of_move (Engine.move_of_step hstep)).2 h

omit [ClusterObject α] in
theorem engine_of_next {s s' : Rehearsal α} {time : Nat} {i : Input α}
    (h : s.next? = some (time, i, s')) : s'.engine = s.engine := by
  unfold next? at h
  repeat' split at h
  all_goals
    cases h
    try rfl

end Rehearsal

namespace Application

open Supervision (History)

structure ToldToStop (a : Application) : Prop where
  reconciler : a.cancelled = true
  pods : a.pods.engine.cancelled = true
  machines : a.machines.engine.cancelled = true

/-- The supervisor takes a step and the application does as it says, a watch takes a step, the
reconciler works through the queue, or the scripts and the clock of the watches change. -/
inductive Conduct (settings : Settings) : History → Application → Prop
  | start (listening : Listening) (pods : Rehearsal Pod) (machines : Rehearsal VirtualMachine) :
      Conduct settings
        [(.run listening, ((Supervisor.idle settings.shutdownTimeout).startAll listening).2)]
        (.ofWatches settings listening pods machines)
  | told {history a i s outputs} : Conduct settings history a →
      a.supervisor.step i = some (s, outputs) →
      Conduct settings (history ++ [(i, outputs)]) (a.tell i)
  | pods {history a} (i : Input Pod) : Conduct settings history a →
      Conduct settings history (a.feedPods i a.pods)
  | machines {history a} (i : Input VirtualMachine) : Conduct settings history a →
      Conduct settings history (a.feedMachines i a.machines)
  | reconcile {history a} : Conduct settings history a → Conduct settings history a.reconcile
  | scripted {history a} (pods : Rehearsal Pod) (machines : Rehearsal VirtualMachine) (now : Nat) :
      Conduct settings history a → pods.engine = a.pods.engine →
      machines.engine = a.machines.engine →
      Conduct settings history { a with pods, machines, now }

variable {settings : Settings} {history : History} {a : Application}

/-! ## Steps of the supervisor -/

theorem toldToStop_cancel (a : Application) : a.cancel.ToldToStop :=
  ⟨rfl, Rehearsal.cancelled_feed .cancel (.inr rfl), Rehearsal.cancelled_feed .cancel (.inr rfl)⟩

theorem supervisor_reconcile (a : Application) : a.reconcile.supervisor = a.supervisor := by
  unfold reconcile
  split <;> rfl

theorem ToldToStop.reconcile (h : a.ToldToStop) : a.reconcile = a :=
  if_pos h.reconciler

section Tell

variable {i : Supervision.Input} {s : Supervisor} {outputs : List Supervision.Output}

theorem tell_of_step (hstep : a.supervisor.step i = some (s, outputs)) :
    a.tell i =
      if i.sees then cancel { a with supervisor := s } else { a with supervisor := s } := by
  have hstop := Supervisor.stop_mem_of_move (Supervisor.move_of_step hstep)
  simp only [tell, hstep]
  refine if_congr ?_ rfl rfl
  rw [List.any_eq_true, ← hstop]
  constructor
  · rintro ⟨o, ho, hmatch⟩
    split at hmatch
    · exact ho
    · cases hmatch
  · exact fun ho => ⟨_, ho, rfl⟩

theorem supervisor_tell (hstep : a.supervisor.step i = some (s, outputs)) :
    (a.tell i).supervisor = s := by
  rw [tell_of_step hstep]
  split <;> rfl

theorem ToldToStop.tell (hstep : a.supervisor.step i = some (s, outputs))
    (h : i.sees = true ∨ a.ToldToStop) : (a.tell i).ToldToStop := by
  rw [tell_of_step hstep]
  split
  · exact toldToStop_cancel _
  · obtain ⟨hreconciler, hpods, hmachines⟩ := h.resolve_left ‹_›
    exact ⟨hreconciler, hpods, hmachines⟩

end Tell

/-! ## Conducts -/

theorem Conduct.run (conduct : Conduct settings history a) :
    Supervisor.Run settings.shutdownTimeout history a.supervisor := by
  induction conduct with
  | start listening pods machines => exact .start rfl
  | told _ hstep ih =>
    rw [supervisor_tell hstep]
    exact ih.step hstep
  | pods _ _ ih | machines _ _ ih | scripted _ _ _ _ _ _ ih => exact ih
  | reconcile _ ih => rwa [supervisor_reconcile]

theorem Conduct.toldToStop (conduct : Conduct settings history a)
    (hseen : history.seenFirst?.isSome) : a.ToldToStop := by
  induction conduct with
  | start listening pods machines => cases hseen
  | @told history a i s outputs _ hstep ih =>
    rw [History.seenFirst?_snoc] at hseen
    refine ToldToStop.tell hstep ?_
    cases hsees : i.sees with
    | true => exact .inl rfl
    | false => exact .inr (ih (by simpa [hsees] using hseen))
  | pods i _ ih =>
    obtain ⟨hreconciler, hpods, hmachines⟩ := ih hseen
    exact ⟨hreconciler, Rehearsal.cancelled_feed i (.inl hpods), hmachines⟩
  | machines i _ ih =>
    obtain ⟨hreconciler, hpods, hmachines⟩ := ih hseen
    exact ⟨hreconciler, hpods, Rehearsal.cancelled_feed i (.inl hmachines)⟩
  | reconcile _ ih =>
    rw [(ih hseen).reconcile]
    exact ih hseen
  | scripted _ _ _ _ hpods hmachines ih =>
    obtain ⟨hreconciler, hp, hm⟩ := ih hseen
    exact ⟨hreconciler, hpods ▸ hp, hmachines ▸ hm⟩

theorem cancelled_reconcile (a : Application) : a.reconcile.cancelled = a.cancelled := by
  unfold reconcile
  split <;> rfl

theorem Conduct.not_cancelled (conduct : Conduct settings history a)
    (hunseen : history.seenFirst? = none) : a.cancelled = false := by
  induction conduct with
  | start listening pods machines => rfl
  | @told history a i s outputs _ hstep ih =>
    rw [History.seenFirst?_snoc, Option.or_eq_none_iff] at hunseen
    have hsees : ¬ i.sees = true := by simpa using hunseen.2
    rw [tell_of_step hstep, if_neg hsees]
    exact ih hunseen.1
  | pods _ _ ih | machines _ _ ih | scripted _ _ _ _ _ _ ih => exact ih hunseen
  | reconcile _ ih =>
    rw [cancelled_reconcile]
    exact ih hunseen

theorem Conduct.timeUp (conduct : Conduct settings history a) {tasks : List BackgroundTask}
    {left : Nat} {o : Outcome} (hp : a.supervisor.phase = .awaiting tasks left o) :
    ∃ b, Conduct settings (history ++ [(.passed left, []), (.timeUp, [.result o])]) b ∧
      b.supervisor.outcome? = some o := by
  have hpassed := Supervisor.step_passed hp
  have hup : (a.tell (.passed left)).supervisor.step .timeUp =
      some ({ a.supervisor with phase := .returned o }, [.result o]) := by
    rw [supervisor_tell hpassed]
    rfl
  refine ⟨_, ?_, congrArg Supervisor.outcome? (supervisor_tell hup)⟩
  simpa using (conduct.told hpassed).told hup

theorem Conduct.again (conduct : Conduct settings history a)
    (hsome : a.supervisor.outcome?.isSome) (listening : Listening) :
    Conduct settings (history ++ [(.run listening, [.result (.error .alreadyRun)])]) a := by
  have hstep := Supervisor.step_run_of_returned listening hsome
  have hsame : a.tell (.run listening) = a := tell_of_step hstep
  simpa only [hsame] using conduct.told hstep

/-- A run that listens for wishes to shut down is a success if a wish was seen before the end of any
task, and fails with that end otherwise. When it returns all tasks have been told to stop. (A run
that cannot listen fails at once, without waiting for a task and without telling any to stop.) The
task that was seen to end is not waited for again, every other one once at most, and all of them for
the given time at most. The tasks are started once; a later order to run is refused. What has
happened can be seen until something is, then the run can come to its end, and after that an order
to run can be given. -/
theorem Conduct.supervised (conduct : Conduct settings history a) :
    (history.Listens → ∀ o, a.supervisor.outcome? = some o → a.ToldToStop ∧
      (history.seenFirst? = some .seeWish ∧ o = .ok () ∨
        ∃ index t how, history.seenFirst? = some (.seeEnd index) ∧
          BackgroundTask.all[index]? = some t ∧ .ended t how ∈ history.inputs ∧
          o = .error (.ofEnd how))) ∧
    (∀ cause, history.refusal? = some cause →
      a.supervisor.outcome? = some (.error (.notListening cause)) ∧ a.cancelled = false ∧
        history.awaits = []) ∧
    (∀ index t, history.seenFirst? = some (.seeEnd index) → BackgroundTask.all[index]? = some t →
      t ∉ history.awaits) ∧
    history.awaits.Nodup ∧
    history.elapsed ≤ settings.shutdownTimeout.toNanos ∧
    history.starts = BackgroundTask.all ∧
    (∃ n, history.runs = n + 1 ∧ history.results =
      a.supervisor.outcome?.toList ++ List.replicate n (.error .alreadyRun)) ∧
    (history.Listens → history.seenFirst? = none →
      (.wish ∈ history.inputs → (a.supervisor.step .seeWish).isSome) ∧
      ∀ t how, .ended t how ∈ history.inputs → ∃ index, BackgroundTask.all[index]? = some t ∧
        (a.supervisor.step (.seeEnd index)).isSome) ∧
    (history.seenFirst?.isSome → a.supervisor.outcome? = none →
      ∃ left o b, Conduct settings (history ++ [(.passed left, []), (.timeUp, [.result o])]) b ∧
        b.supervisor.outcome? = some o) ∧
    (a.supervisor.outcome?.isSome → ∀ listening,
      Conduct settings (history ++ [(.run listening, [.result (.error .alreadyRun)])]) a) := by
  have run := conduct.run
  obtain ⟨htime, hnodup, hnever⟩ := run.awaits
  obtain ⟨n, hruns, hresults, -⟩ := run.results
  refine ⟨fun listens o ho => ?_, fun cause hrefused => ?_, hnever, hnodup, htime, run.starts,
    ⟨n, hruns, hresults⟩, run.can_see, fun hseen hnone => ?_, conduct.again⟩
  · obtain ⟨others, hd⟩ := run.outcome listens ho
    refine ⟨conduct.toldToStop hd.isSome_seenFirst?, ?_⟩
    cases hd with
    | wish hseen => exact .inl ⟨hseen, rfl⟩
    | ended hseen ht hend => exact .inr ⟨_, _, _, hseen, ht, hend, rfl⟩
  · have hdeaf := run.deaf hrefused
    refine ⟨?_, conduct.not_cancelled hdeaf.unseen, hdeaf.awaits⟩
    rw [Supervisor.outcome?, hdeaf.phase]
  · obtain ⟨tasks, left, o, hp⟩ := run.awaiting hseen hnone
    exact ⟨left, o, conduct.timeUp hp⟩

/-- The watch of the pods ends and so does the reconciler; that of the machines does not in time. A
run that cannot listen for wishes is over at once. -/
theorem Conduct.supervised_sample :
    (∃ history a, Conduct .standard history a ∧
      history.inputs = [.run (.ok ()), .wish, .ended .podWatch (.ok ()), .seeEnd 1,
        .ended .reconciler (.ok ()), .joined, .passed Settings.standard.shutdownTimeout.toNanos,
        .timeUp, .run (.ok ())] ∧
      history.Listens ∧ a.ToldToStop ∧ a.supervisor.outcome? = some (.error .taskEnded) ∧
      history.awaits = [.reconciler, .machineWatch] ∧
      history.results = [.error .taskEnded, .error .alreadyRun]) ∧
    ∃ history a, Conduct .standard history a ∧ history.refusal? = some "no such signal" ∧
      a.supervisor.outcome? = some (.error (.notListening "no such signal")) ∧
      a.cancelled = false ∧ history.starts = BackgroundTask.all := by
  let pods : Rehearsal Pod := .started Settings.standard.podConfig ⟨[], []⟩ 0
  let machines : Rehearsal VirtualMachine := .started Settings.standard.machineConfig ⟨[], []⟩ 0
  constructor
  · have start : Conduct .standard _ (.ofWatches .standard (.ok ()) pods machines) :=
      .start (.ok ()) pods machines
    have seen := ((start.told (i := .wish) rfl).told (i := .ended .podWatch (.ok ())) rfl).told
      (i := .seeEnd 1) rfl
    have joined := (seen.told (i := .ended .reconciler (.ok ())) rfl).told (i := .joined) rfl
    obtain ⟨a, returned, houtcome⟩ := joined.timeUp rfl
    have conduct := returned.again (houtcome ▸ rfl) (.ok ())
    obtain ⟨hstop, -⟩ := conduct.supervised.1 rfl _ houtcome
    exact ⟨_, a, conduct, rfl, rfl, hstop, houtcome, rfl, rfl⟩
  · have deaf :
        Conduct .standard _ (.ofWatches .standard (.error "no such signal") pods machines) :=
      .start (.error "no such signal") pods machines
    obtain ⟨-, hrefused, -, -, -, hstarts, -⟩ := deaf.supervised
    obtain ⟨houtcome, hgoes, -⟩ := hrefused _ rfl
    exact ⟨_, _, deaf, rfl, houtcome, hgoes, hstarts⟩

/-! ## The rehearsed application -/

theorem Launch.conduct {l : Launch} (h : l.application settings = .ok a) :
    Conduct settings [(.run (.ok ()), BackgroundTask.all.map .start)] a := by
  unfold Launch.application at h
  split at h
  · cases h
  · cases h
  · split at h
    · cases h
    · cases h
      exact .start (.ok ()) _ _

def Reaches (settings : Settings) (history : History) (b : Application) : Prop :=
  ∃ later, Conduct settings (history ++ later) b

theorem Conduct.reaches (conduct : Conduct settings history a) : Reaches settings history a :=
  ⟨[], by simpa using conduct⟩

theorem Reaches.trans {b : Application} (h : Reaches settings history a)
    (hnext : ∀ {earlier}, Conduct settings earlier a → Reaches settings earlier b) :
    Reaches settings history b := by
  obtain ⟨later, conduct⟩ := h
  obtain ⟨last, conduct⟩ := hnext conduct
  exact ⟨later ++ last, by simpa using conduct⟩

theorem Conduct.tell (conduct : Conduct settings history a) (i : Supervision.Input) :
    Reaches settings history (a.tell i) := by
  cases hstep : a.supervisor.step i with
  | none =>
    rw [Application.tell, hstep]
    exact conduct.reaches
  | some step => exact ⟨_, conduct.told hstep⟩

theorem Conduct.tellAll (conduct : Conduct settings history a) (is : List Supervision.Input) :
    Reaches settings history (is.foldl Application.tell a) := by
  induction is generalizing history a with
  | nil => exact conduct.reaches
  | cons i is ih => exact (conduct.tell i).trans ih

theorem Conduct.settle (conduct : Conduct settings history a) :
    Reaches settings history a.settle := by
  unfold Application.settle
  split
  · exact conduct.reconcile.tellAll _
  · exact conduct.reaches

theorem Conduct.next {time : Nat} {b : Application} (conduct : Conduct settings history a)
    (h : a.next? = some (time, b)) : Conduct settings history b := by
  have hpods {pods : Rehearsal Pod} {i : Input Pod} (hnext : a.pods.next? = some (time, i, pods)) :
      Conduct settings history (a.feedPods i pods) :=
    (conduct.scripted pods a.machines a.now (Rehearsal.engine_of_next hnext) rfl).pods i
  have hmachines {machines : Rehearsal VirtualMachine} {i : Input VirtualMachine}
      (hnext : a.machines.next? = some (time, i, machines)) :
      Conduct settings history (a.feedMachines i machines) :=
    (conduct.scripted a.pods machines a.now rfl (Rehearsal.engine_of_next hnext)).machines i
  unfold Application.next? at h
  split at h
  · split at h <;> cases h
    · exact hpods ‹_›
    · exact hmachines ‹_›
  · cases h
    exact hpods ‹_›
  · cases h
    exact hmachines ‹_›
  · cases h

theorem Conduct.setClock (conduct : Conduct settings history a) (time : Nat) :
    Conduct settings history (a.setClock time) :=
  conduct.scripted { a.pods with now := time } { a.machines with now := time } time rfl rfl

theorem Conduct.runUntil (conduct : Conduct settings history a) (deadline fuel : Nat) :
    Reaches settings history (a.runUntil deadline fuel) := by
  induction fuel generalizing history a with
  | zero => exact conduct.reaches
  | succ fuel ih =>
    unfold Application.runUntil
    split
    · rename_i time b hnext
      split
      · exact ((conduct.next hnext).setClock time).settle.trans ih
      · exact conduct.reaches
    · exact conduct.reaches

theorem Conduct.advance (conduct : Conduct settings history a) (nanos : Nat) :
    Reaches settings history (a.advance nanos) := by
  refine conduct.settle.trans fun settled => ?_
  exact (settled.runUntil _ _).trans fun last => (last.setClock _).reaches

end Application

end BufferLedger
