import BufferLedger.Proofs.Stretch

/-!
# Cancelling a watch

A cancellation is noticed when the watch comes to it. From the moment at which it is made no event
is applied any more; the whole of a list that comes still may be. Once the watch has stopped nothing
changes and nothing is done but refusing requests, and a start that fails has stopped the watch
(`Engine.clean_stop`).
-/

namespace BufferLedger

variable {α : Type}

/-- The first list of a watch whose start waits for it has not come. -/
def Phase.starting : Phase → Bool
  | .listing (.start _) | .beforeList (.start _) => true
  | _ => false

namespace Engine

def deeds (config : WatchConfig) (mode : StartMode) (h : History α) : List (Output α) :=
  (Engine.start config mode).2 ++ h.flatMap Prod.snd

theorem deeds_append (config : WatchConfig) (mode : StartMode) (h : History α) (i : Input α)
    (outputs : List (Output α)) :
    deeds config mode (h ++ [(i, outputs)]) = deeds config mode h ++ outputs := by
  simp [deeds]

variable [ClusterObject α] {w w' : Engine α} {i : Input α} {s : Step α} {outputs : List (Output α)}
  {config : WatchConfig} {mode : StartMode} {history : History α}

/-! ## After a cancellation -/

theorem cancelled_of_move (hmove : Move w i s) :
    s.1.cancelled = true ↔ w.cancelled = true ∨ i = .cancel := by
  have hkept (hi : i ≠ .cancel) (h : s.1.cancelled = w.cancelled) :
      s.1.cancelled = true ↔ w.cancelled = true ∨ i = .cancel := by
    rw [h, or_iff_left hi]
  cases hmove with
  | cancel => simp
  | noticeCancel _ _ => exact hkept (by simp) (by rw [fst_finishCancelled])
  | listFailed _ => exact hkept (by simp) (flags_listFailed w _).1
  | openFailed _ | streamFailed _ _ _ => exact hkept (by simp) (flags_watchFailed w _).1
  | _ => exact hkept (by simp) rfl

theorem Run.cancelled_iff (run : Run config mode history w) :
    w.cancelled = true ↔ .cancel ∈ history.inputs := by
  induction run with
  | start => cases mode <;> simp [Engine.start, History.inputs]
  | step run hstep ih =>
    rw [cancelled_of_move (move_of_step hstep), ih, History.inputs_append, List.mem_append,
      List.mem_singleton, eq_comm (b := Input.cancel)]

theorem change_of_cancelled (hc : w.cancelled = true) (hstep : w.step i = some (w', outputs)) :
    (∀ item, i ≠ .received item) ∧
    (w'.collection = w.collection ∧ callsOf outputs = [] ∨
      ∃ l, i = .listed (.ok l) ∧ (w'.collection, callsOf outputs) = w.collection.replace l) := by
  have hchange := step_change hstep
  match i with
  | .received item =>
    obtain ⟨-, hnot, -⟩ := reading_of_received (move_of_step hstep)
    rw [hc] at hnot
    cases hnot
  | .listed (.ok l) => exact ⟨by simp, .inr ⟨l, rfl, Prod.ext hchange.1 hchange.2⟩⟩
  | .listed (.error e) | .opened a | .closed | .elapsed | .cancel | .noticeCancel | .request r
  | .noticeRequest => exact ⟨by simp, .inl hchange⟩

/-! ## The start -/

theorem starting_of_move (hmove : Move w i s) (h : s.1.phase.starting = true) :
    w.phase.starting = true := by
  cases hmove with
  | cancel | lateRequest _ | request _ | received _ _ _ => exact h
  | @listFailed p _ hp =>
    cases p with
    | start attempt =>
      rw [hp]
      rfl
    | sync | relist r => cases h
  | @listAgain p hp =>
    cases p with
    | start attempt =>
      rw [hp]
      rfl
    | sync | relist r => cases h
  | openFailed _ | streamFailed _ _ _ =>
    simp only [watchFailed] at h
    split at h <;> cases h
  | noticeCancel _ _ =>
    rw [fst_finishCancelled] at h
    cases h
  | noticeRequest _ _ _ | listed _ | opened _ | closed _ _ _ | watchAgain _ => cases h

omit [ClusterObject α] in
theorem not_started_mem_finish (w : Engine α) (result : Except WatchError Unit) :
    .started result ∉ w.finish.2 := by
  simp [finish]

omit [ClusterObject α] in
theorem started_of_failStart {e : WatchError} {result : Except WatchError Unit}
    (h : .started result ∈ (w.failStart e).2) : result = .error e := by
  rcases List.mem_append.1 h with h | h
  · exact absurd h (not_started_mem_finish w _)
  · simpa using h

omit [ClusterObject α] in
theorem started_of_finishCancelled {result : Except WatchError Unit}
    (h : .started result ∈ w.finishCancelled.2) :
    w.phase.starting = true ∧ result = .error (.cancelled w.config.name) := by
  unfold finishCancelled at h
  split at h
  · rename_i hp
    exact ⟨by rw [hp]; rfl, started_of_failStart h⟩
  · rename_i hp
    exact ⟨by rw [hp]; rfl, started_of_failStart h⟩
  · exact absurd h (not_started_mem_finish w _)

theorem started_of_listSucceeded {p : Purpose} {l : Listing α} {result : Except WatchError Unit}
    (h : .started result ∈ (w.listSucceeded p l).2) :
    (∃ attempt, p = .start attempt) ∧ result = .ok () := by
  cases p with
  | start attempt =>
    refine ⟨⟨attempt, rfl⟩, ?_⟩
    simpa [listSucceeded, listOutputs, openWatch] using h
  | sync => simp [listSucceeded, listOutputs, openWatch] at h
  | relist r => simp [listSucceeded, listOutputs, openWatch] at h

omit [ClusterObject α] in
theorem started_of_listFailed {p : Purpose} {result : Except WatchError Unit}
    (h : .started result ∈ (w.listFailed p).2) :
    (∃ attempt, p = .start attempt ∧ result = .error (.firstListFailed w.config.name attempt)) ∧
      (w.listFailed p).1.phase = .finished ∧ (w.listFailed p).1.stopped = true := by
  cases p with
  | start attempt =>
    simp only [listFailed] at h ⊢
    split at h
    · rename_i hlimit
      rw [if_pos hlimit]
      exact ⟨⟨attempt, rfl, started_of_failStart h⟩, rfl, rfl⟩
    · simp [waitForList] at h
  | sync => simp [listFailed, waitForList] at h
  | relist r => simp [listFailed, waitForList] at h

theorem started_of_move {result : Except WatchError Unit} (hmove : Move w i s)
    (h : .started result ∈ s.2) :
    w.phase.starting = true ∧
      match result with
      | .ok _ => s.1.phase = .opening
      | .error _ => s.1.phase = .finished ∧ s.1.stopped = true := by
  cases hmove with
  | noticeCancel _ _ =>
    obtain ⟨hstarting, rfl⟩ := started_of_finishCancelled h
    exact ⟨hstarting, by simp [fst_finishCancelled]⟩
  | listed hp =>
    obtain ⟨⟨attempt, rfl⟩, rfl⟩ := started_of_listSucceeded h
    rw [hp]
    exact ⟨rfl, rfl⟩
  | listFailed hp =>
    obtain ⟨⟨attempt, rfl, rfl⟩, hends⟩ := started_of_listFailed h
    rw [hp]
    exact ⟨rfl, hends⟩
  | received _ _ _ => simp at h
  | openFailed _ | streamFailed _ _ _ =>
    simp only [watchFailed] at h
    split at h <;> simp [askList, waitForWatch] at h
  | _ => simp [askList, waitForWatch, openWatch] at h

theorem mode_of_starting (run : Run config mode history w) (h : w.phase.starting = true) :
    mode = .waiting := by
  induction run with
  | start =>
    cases mode with
    | waiting => rfl
    | atOnce => cases h
  | step _ hstep ih => exact ih (starting_of_move (move_of_step hstep) h)

theorem stopped_of_failed_start {e : WatchError} (run : Run config mode history w)
    (h : .started (.error e) ∈ deeds config mode history) :
    mode = .waiting ∧ w.stopped = true := by
  induction run with
  | start => cases mode <;> simp [deeds, Engine.start] at h
  | step run hstep ih =>
    have hmove := move_of_step hstep
    rw [deeds_append, List.mem_append] at h
    rcases h with h | h
    · obtain ⟨hmode, hstopped⟩ := ih h
      exact ⟨hmode, (frozen_of_stopped hmove run.flagged hstopped).1.stopped⟩
    · obtain ⟨hstarting, -, hstopped⟩ := started_of_move hmove h
      exact ⟨mode_of_starting run hstarting, hstopped⟩

/-- Once a watch has been cancelled it applies nothing but whole lists. Once it has stopped it shows
the same for ever and only refuses requests. A start that fails is one that was waited for, and the
watch has stopped. -/
theorem clean_stop (run : Run config mode history w) :
    (.cancel ∈ history.inputs → ∀ i w' outputs, w.step i = some (w', outputs) →
      (∀ item, i ≠ .received item) ∧
      (w'.collection = w.collection ∧ callsOf outputs = [] ∨
        ∃ l, i = .listed (.ok l) ∧ (w'.collection, callsOf outputs) = w.collection.replace l)) ∧
    (w.stopped = true → ∀ later v, Stretch w later v →
      Frozen w v ∧ ∀ e ∈ later, ∀ o ∈ e.2, ∃ r, o = .answered r false) ∧
    ∀ e, .started (.error e) ∈ deeds config mode history → mode = .waiting ∧ w.stopped = true := by
  refine ⟨?_, ?_, fun e h => stopped_of_failed_start run h⟩
  · intro hcancel i w' outputs hstep
    exact change_of_cancelled (run.cancelled_iff.2 hcancel) hstep
  · exact fun hstopped later v stretch => stretch.frozen run.flagged hstopped

theorem clean_stop_sample :
    ∃ history w v, Run (.standard "pods") .waiting history w ∧
      history.inputs = [.podList "1" ["a"], .opened (.ok ()), .cancel] ∧
      (∀ e : WatchEvent Pod, w.step (.received (.ok e)) = none) ∧
      w.step .noticeCancel = some (v, []) ∧
      ∀ later last, Stretch v later last →
        last.stopped = true ∧ last.collection.objects.keys = [⟨"default", "a"⟩] := by
  obtain ⟨history, w, hf⟩ : ∃ history w, (Engine.start (.standard "pods") .waiting).1.follow
      [.podList "1" ["a"], .opened (.ok ()), .cancel] = some (history, w) := ⟨_, _, rfl⟩
  have run := Run.start.follow hf
  have hinputs := inputs_of_follow hf
  obtain ⟨v, hnotice⟩ : ∃ v, w.step .noticeCancel = some (v, []) := by
    cases hf
    exact ⟨_, rfl⟩
  have hv : v.stopped = true ∧ v.collection.objects.keys = [⟨"default", "a"⟩] := by
    cases hf
    cases hnotice
    exact ⟨rfl, rfl⟩
  have hcancel : .cancel ∈ history.inputs := by simp [hinputs]
  refine ⟨history, w, v, run, hinputs, ?_, hnotice, ?_⟩
  · intro e
    cases hstep : w.step (.received (.ok e)) with
    | none => rfl
    | some s => exact absurd rfl (((clean_stop run).1 hcancel _ _ _ hstep).1 (.ok e))
  · intro later last stretch
    obtain ⟨hfrozen, -⟩ := (clean_stop (run.step hnotice)).2.1 hv.1 later last stretch
    exact ⟨hfrozen.stopped, hfrozen.collection ▸ hv.2⟩

end Engine

end BufferLedger
