import BufferLedger.Proofs.Stopping

/-!
# What the flags of a watch say

The three flags of a watch are functions of what has happened to it (`Engine.flags_tell`). It is
synced once a list has come, and it has stopped once it has noticed its cancellation or given up
its start, which is when it has no step left of its own. Whether it is failing was said by the last
answer that says so: a list or a stream that came or that failed, but no event, no end of a
stream, and no failure for an expired version.
-/

namespace BufferLedger

variable {α : Type}

def Input.fails? : Input α → Option Bool
  | .listed (.ok _) | .opened (.ok _) => some false
  | .listed (.error _) => some true
  | .opened (.error e) | .received (.error e) => if e.needsList then none else some true
  | _ => none

def LastFailed (inputs : List (Input α)) : Prop :=
  ∃ before i after, inputs = before ++ i :: after ∧ i.fails? = some true ∧
    ∀ j ∈ after, j.fails? = none

theorem lastFailed_append {inputs : List (Input α)} {i : Input α} :
    LastFailed (inputs ++ [i]) ↔ i.fails? = some true ∨ (i.fails? = none ∧ LastFailed inputs) := by
  constructor
  · rintro ⟨before, j, after, h, hj, hafter⟩
    obtain rfl | ⟨after, last, rfl⟩ := List.eq_nil_or_concat after
    · obtain ⟨-, hi⟩ := List.append_inj' h rfl
      obtain rfl := List.singleton_inj.1 hi
      exact .inl hj
    · rw [List.concat_eq_append, ← List.cons_append, ← List.append_assoc] at h
      obtain ⟨rfl, hi⟩ := List.append_inj' h rfl
      obtain rfl := List.singleton_inj.1 hi
      refine .inr ⟨hafter i (by simp), before, j, after, rfl, hj, ?_⟩
      exact fun x hx => hafter x (by simp [hx])
  · rintro (hi | ⟨hi, before, j, after, rfl, hj, hafter⟩)
    · exact ⟨inputs, i, [], rfl, hi, by simp⟩
    · refine ⟨before, j, after ++ [i], by simp, hj, ?_⟩
      rw [List.forall_mem_append]
      exact ⟨hafter, by simpa using hi⟩

namespace Engine

/-- A watch has been ended: its cancellation was noticed or its start was given up. -/
def History.Ended (h : History α) : Prop :=
  ∃ e ∈ h, e.1 = .noticeCancel ∨
    ∃ name attempts, .started (.error (.firstListFailed name attempts)) ∈ e.2

theorem History.ended_append {h : History α} {i : Input α} {outputs : List (Output α)} :
    Ended (h ++ [(i, outputs)]) ↔ Ended h ∨ i = .noticeCancel ∨
      ∃ name attempts, .started (.error (.firstListFailed name attempts)) ∈ outputs := by
  simp only [Ended, List.mem_append, List.mem_singleton, or_and_right, exists_or, exists_eq_left]

variable [ClusterObject α] {w w' : Engine α} {i : Input α} {s : Step α} {config : WatchConfig}
  {mode : StartMode} {history : History α}

/-- A watch does nothing any more by itself. Wishes can still be made. -/
def Exited (w : Engine α) : Prop :=
  ∀ i, i ≠ .cancel → (∀ r, i ≠ .request r) → w.step i = none

/-! ## One step -/

theorem failing_of_move (hmove : Move w i s) : s.1.failing = i.fails?.getD w.failing := by
  cases hmove with
  | listFailed _ => exact (flags_listFailed w _).2.2
  | @openFailed e _ | @streamFailed e _ _ _ =>
    rw [(flags_watchFailed w e).2.2, Input.fails?]
    cases e.needsList <;> rfl
  | noticeCancel _ _ =>
    rw [fst_finishCancelled]
    rfl
  | _ => rfl

theorem synced_of_move (hmove : Move w i s) (hw : w.Flagged) :
    s.1.synced = true ↔ w.synced = true ∨ ∃ l, i = .listed (.ok l) := by
  have hkept (hi : ∀ l, i ≠ .listed (.ok l)) (h : s.1.synced = w.synced) :
      s.1.synced = true ↔ w.synced = true ∨ ∃ l, i = .listed (.ok l) := by
    rw [h, or_iff_left (by simpa using hi)]
  have hafter := flagged_of_move hmove hw
  cases hmove with
  | @listed p l _ => exact iff_of_true (hafter.synced rfl) (.inr ⟨l, rfl⟩)
  | noticeCancel _ _ => exact hkept (by simp) (by rw [fst_finishCancelled])
  | listFailed _ => exact hkept (by simp) (flags_listFailed w _).2.1
  | openFailed _ | streamFailed _ _ _ => exact hkept (by simp) (flags_watchFailed w _).2.1
  | _ => exact hkept (by simp) rfl

theorem stopped_of_move (hmove : Move w i s) (hw : w.Flagged) :
    s.1.stopped = true ↔ w.stopped = true ∨ i = .noticeCancel ∨
      ∃ name attempts, .started (.error (.firstListFailed name attempts)) ∈ s.2 := by
  constructor
  · intro h
    cases hmove with
    | cancel | lateRequest _ | request _ | received _ _ _ => exact .inl h
    | noticeCancel _ _ => exact .inr (.inl rfl)
    | @listFailed p _ _ =>
      cases p with
      | start attempt =>
        simp only [listFailed] at h ⊢
        split at h
        · rename_i hlimit
          rw [if_pos hlimit]
          exact .inr (.inr ⟨_, _, List.mem_append_right _ (List.mem_singleton_self _)⟩)
        · exact .inl h
      | sync | relist r => exact .inl h
    | openFailed _ | streamFailed _ _ _ =>
      simp only [watchFailed] at h
      split at h <;> exact .inl h
    | noticeRequest _ _ _ | listed _ | opened _ | closed _ _ _ | listAgain _ | watchAgain _ =>
      exact .inl h
  · rintro (h | rfl | ⟨name, attempts, h⟩)
    · exact (frozen_of_stopped hmove hw h).1.stopped
    · cases hmove
      rw [fst_finishCancelled]
    · exact (started_of_move hmove h).2.2

theorem exited_of_finished (hphase : w.phase = .finished) : Exited w := by
  intro i hcancel hrequest
  cases i with
  | cancel => exact absurd rfl hcancel
  | request r => exact absurd rfl (hrequest r)
  | listed answer | opened answer | received item | closed | elapsed | noticeCancel
  | noticeRequest => simp [step, hphase]

theorem step_of_not_finished (h : w.phase ≠ .finished) :
    ∃ i, i ≠ .cancel ∧ (∀ r, i ≠ .request r) ∧ w.step i ≠ none := by
  cases hphase : w.phase with
  | listing p => exact ⟨.listed (.error (.listFailed "")), by simp, by simp, by simp [step, hphase]⟩
  | opening => exact ⟨.opened (.ok ()), by simp, by simp, by simp [step, hphase]⟩
  | beforeList p | beforeWatch => exact ⟨.elapsed, by simp, by simp, by simp [step, hphase]⟩
  | finished => exact absurd hphase h
  | reading =>
    cases hc : w.cancelled with
    | true => exact ⟨.noticeCancel, by simp, by simp, by simp [step, hphase, hc]⟩
    | false =>
      cases hr : w.requests with
      | nil => exact ⟨.closed, by simp, by simp, by simp [step, hphase, hc, hr]⟩
      | cons r rest => exact ⟨.noticeRequest, by simp, by simp, by simp [step, hphase, hc, hr]⟩

theorem finished_iff_exited : w.phase = .finished ↔ Exited w := by
  refine ⟨exited_of_finished, fun h => ?_⟩
  by_contra hgoes
  obtain ⟨i, hcancel, hrequest, hstep⟩ := step_of_not_finished hgoes
  exact hstep (h i hcancel hrequest)

/-! ## Runs -/

theorem Run.failing_iff (run : Run config mode history w) :
    w.failing = true ↔ LastFailed history.inputs := by
  induction run with
  | start =>
    have hnever : ¬ LastFailed ([] : List (Input α)) := by
      rintro ⟨before, i, after, h, -⟩
      simp at h
    cases mode <;> exact iff_of_false (by simp [Engine.start]) hnever
  | step _ hstep ih =>
    rw [failing_of_move (move_of_step hstep), History.inputs_append, lastFailed_append, ← ih]
    cases Input.fails? _ <;> simp

theorem Run.synced_iff (run : Run config mode history w) :
    w.synced = true ↔ ∃ l, .listed (.ok l) ∈ history.inputs := by
  induction run with
  | start => cases mode <;> simp [Engine.start, History.inputs]
  | step run hstep ih =>
    simp only [synced_of_move (move_of_step hstep) run.flagged, ih, History.inputs_append,
      List.mem_append, List.mem_singleton, exists_or, eq_comm]

theorem Run.stopped_iff (run : Run config mode history w) : w.stopped = true ↔ history.Ended := by
  induction run with
  | start => cases mode <;> simp [Engine.start, History.Ended]
  | step run hstep ih =>
    rw [stopped_of_move (move_of_step hstep) run.flagged, ih, History.ended_append]

theorem Stretch.stays_synced {v : Engine α} {later : History α} (stretch : Stretch w later v)
    (hw : w.Flagged) (h : w.synced = true) : v.synced = true := by
  have hstep {u : Engine α} {i : Input α} {s : Step α} (hu : u.Flagged ∧ u.synced = true)
      (hmove : Move u i s) : (s.1.Flagged ∧ s.1.synced = true) ∧ True :=
    ⟨⟨flagged_of_move hmove hu.1, (synced_of_move hmove hu.1).2 (.inl hu.2)⟩, trivial⟩
  exact (stretch.always (fun u => u.Flagged ∧ u.synced = true) (fun _ _ => True) hstep
    ⟨hw, h⟩).1.2

/-- A watch is synced once a list has been applied, and for ever after. It has stopped once it has
been ended and has no step of its own any more, and for ever after. It is failing just if the last
answer about lists and streams was a failure, where events, ends of streams and expired versions do
not count. -/
theorem flags_tell (run : Run config mode history w) :
    (w.synced = true ↔ ∃ l, .listed (.ok l) ∈ history.inputs) ∧
    (w.stopped = true ↔ history.Ended) ∧ (w.stopped = true ↔ Exited w) ∧
    (w.failing = true ↔ LastFailed history.inputs) ∧
    ∀ later v, Stretch w later v →
      (w.synced = true → v.synced = true) ∧ (w.stopped = true → v.stopped = true) := by
  refine ⟨run.synced_iff, run.stopped_iff, run.flagged.stopped.trans finished_iff_exited,
    run.failing_iff, ?_⟩
  intro later v stretch
  exact ⟨stretch.stays_synced run.flagged, fun h => (stretch.frozen run.flagged h).1.stopped⟩

def brokenInputs : List (Input Pod) :=
  [.podList "1" ["a"], .opened (.ok ()), .received (.error (.watchFailed "reset")), .elapsed,
   .opened (.error (.versionExpired "gone")), .cancel, .noticeCancel]

theorem flags_tell_sample :
    ∃ history w, Run (.standard "pods") .atOnce history w ∧ history.inputs = brokenInputs ∧
      w.synced = true ∧ w.failing = true ∧ w.stopped = true ∧ Exited w ∧
      ∀ later v, Stretch w later v → v.synced = true ∧ v.stopped = true := by
  obtain ⟨history, w, hf⟩ : ∃ history w,
      (Engine.start (.standard "pods") .atOnce).1.follow brokenInputs = some (history, w) :=
    ⟨_, _, rfl⟩
  have run : Run (.standard "pods") .atOnce history w := Run.start.follow hf
  have hinputs : history.inputs = brokenInputs := inputs_of_follow hf
  obtain ⟨hsynced, hstopped, hexited, hfailing, hstays⟩ := flags_tell run
  have hlisted : w.synced = true := hsynced.2 ⟨_, by rw [hinputs]; exact List.mem_cons_self ..⟩
  have hended : w.stopped = true := by
    refine hstopped.2 ?_
    cases hf
    exact ⟨_, List.mem_of_getLast? rfl, .inl rfl⟩
  have hfailed : LastFailed history.inputs := by
    refine ⟨brokenInputs.take 2, .received (.error (.watchFailed "reset")), brokenInputs.drop 3,
      hinputs, rfl, ?_⟩
    simp [brokenInputs, Input.fails?, WatchError.needsList]
  refine ⟨history, w, run, hinputs, hlisted, hfailing.2 hfailed, hended, hexited.1 hended, ?_⟩
  intro later v stretch
  exact ⟨(hstays later v stretch).1 hlisted, (hstays later v stretch).2 hended⟩

end Engine

end BufferLedger
