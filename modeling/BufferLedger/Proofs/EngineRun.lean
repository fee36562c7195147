import BufferLedger.Cluster.Pod
import BufferLedger.Proofs.ListDiff

/-!
# Runs of a watch

Every step of a watch is one of the moves below, so that a proof about steps has one case for each
thing that can happen. A run keeps the inputs and what the watch did about each; a list of
inputs that fit makes one (`Engine.Run.follow`). For the collection and the calls only the input
matters (`Engine.step_change`).
-/

namespace BufferLedger

variable {α : Type}

/-! ## Calls among outputs -/

def Output.call? : Output α → Option (Call α)
  | .call c => some c
  | _ => none

def callsOf (outputs : List (Output α)) : List (Call α) :=
  outputs.filterMap Output.call?

theorem callsOf_append (a b : List (Output α)) : callsOf (a ++ b) = callsOf a ++ callsOf b :=
  List.filterMap_append

theorem callsOf_calls (calls : List (Call α)) :
    callsOf (calls.map Output.call) = calls := by
  simp [callsOf, List.filterMap_map, Function.comp_def, Output.call?]

def Phase.pastFirst : Phase → Bool
  | .listing p | .beforeList p => !p.isFirst
  | .opening | .reading | .beforeWatch => true
  | .finished => false

namespace Engine

/-! ## Histories -/

abbrev History (α : Type) := List (Input α × List (Output α))

def History.inputs (h : History α) : List (Input α) :=
  h.map Prod.fst

def History.calls (h : History α) : List (Call α) :=
  h.flatMap fun e => callsOf e.2

theorem History.inputs_append (h : History α) (i : Input α) (outputs : List (Output α)) :
    inputs (h ++ [(i, outputs)]) = inputs h ++ [i] := by
  simp [inputs]

theorem History.forall_inputs_append {p : Input α → Prop} {h : History α} {i : Input α}
    {outputs : List (Output α)} :
    (∀ j ∈ inputs (h ++ [(i, outputs)]), p j) ↔ (∀ j ∈ inputs h, p j) ∧ p i := by
  simp [inputs_append, or_imp, forall_and]

theorem History.calls_append (h : History α) (i : Input α) (outputs : List (Output α)) :
    calls (h ++ [(i, outputs)]) = calls h ++ callsOf outputs := by
  simp [calls]

/-! ## Steps that leave the collection alone -/

def Silent (w : Engine α) (s : Step α) : Prop :=
  s.1.collection = w.collection ∧ callsOf s.2 = []

theorem silent_finish (w : Engine α) : w.Silent w.finish := by
  refine ⟨rfl, ?_⟩
  simp [finish, callsOf, List.filterMap_append, List.filterMap_map, Function.comp_def, Output.call?]

theorem silent_failStart (w : Engine α) (e : WatchError) : w.Silent (w.failStart e) := by
  refine ⟨rfl, ?_⟩
  simp only [failStart, callsOf_append, (silent_finish w).2]
  rfl

theorem fst_finishCancelled (w : Engine α) :
    w.finishCancelled.1 = { w with phase := .finished, stopped := true, requests := [] } := by
  unfold finishCancelled
  split <;> rfl

theorem silent_finishCancelled (w : Engine α) : w.Silent w.finishCancelled := by
  unfold finishCancelled
  split
  · exact silent_failStart w _
  · exact silent_failStart w _
  · exact silent_finish w

theorem silent_listFailed (w : Engine α) (p : Purpose) : w.Silent (w.listFailed p) := by
  cases p with
  | start attempt =>
    simp only [listFailed]
    split
    · exact silent_failStart { w with failing := true } _
    · exact ⟨rfl, rfl⟩
  | sync => exact ⟨rfl, rfl⟩
  | relist r => exact ⟨rfl, rfl⟩

theorem silent_watchFailed (w : Engine α) (e : WatchError) : w.Silent (w.watchFailed e) := by
  unfold watchFailed
  split <;> exact ⟨rfl, rfl⟩

theorem flags_listFailed (w : Engine α) (p : Purpose) :
    (w.listFailed p).1.cancelled = w.cancelled ∧ (w.listFailed p).1.synced = w.synced ∧
      (w.listFailed p).1.failing = true := by
  cases p with
  | start attempt =>
    simp only [listFailed]
    split <;> exact ⟨rfl, rfl, rfl⟩
  | sync => exact ⟨rfl, rfl, rfl⟩
  | relist r => exact ⟨rfl, rfl, rfl⟩

theorem flags_watchFailed (w : Engine α) (e : WatchError) :
    (w.watchFailed e).1.cancelled = w.cancelled ∧ (w.watchFailed e).1.synced = w.synced ∧
      (w.watchFailed e).1.failing = if e.needsList then w.failing else true := by
  unfold watchFailed
  split <;> exact ⟨rfl, rfl, rfl⟩

theorem callsOf_listOutputs (p : Purpose) : callsOf (listOutputs p : List (Output α)) = [] := by
  cases p with
  | start attempt => rfl
  | sync => rfl
  | relist r => cases r <;> rfl

theorem start_collection (config : WatchConfig) (mode : StartMode) :
    (Engine.start config mode : Step α).1.collection = .empty := by
  cases mode <;> rfl

/-! ## Flags -/

section Flags

structure Flagged (w : Engine α) : Prop where
  synced : w.phase.pastFirst = true → w.synced = true
  stopped : w.stopped = true ↔ w.phase = .finished

theorem flagged_start (config : WatchConfig) (mode : StartMode) :
    (Engine.start config mode : Step α).1.Flagged := by
  cases mode <;> constructor <;> simp [Engine.start, Phase.pastFirst, Purpose.isFirst]

variable {w v : Engine α}

theorem Flagged.of_running (h : w.Flagged) (hp : w.phase ≠ .finished) (hv : v.phase ≠ .finished)
    (hstopped : v.stopped = w.stopped) (hsynced : v.phase.pastFirst = true → v.synced = true) :
    v.Flagged := by
  refine ⟨hsynced, ?_⟩
  rw [hstopped, h.stopped]
  exact iff_of_false hp hv

theorem flagged_of_finished (hp : w.phase = .finished) (hs : w.stopped = true) : w.Flagged :=
  ⟨by simp [hp, Phase.pastFirst], iff_of_true hs hp⟩

theorem Flagged.listFailed {p : Purpose} (h : w.Flagged) (hp : w.phase = .listing p) :
    (w.listFailed p).1.Flagged := by
  have hrunning : w.phase ≠ .finished := by simp [hp]
  have hwait : (waitForList p { w with failing := true }).1.Flagged :=
    h.of_running hrunning nofun rfl fun hpast => h.synced (hp ▸ hpast)
  cases p with
  | start attempt =>
    simp only [Engine.listFailed]
    split
    · exact flagged_of_finished rfl rfl
    · exact hwait
  | sync | relist r => exact hwait

theorem Flagged.watchFailed (h : w.Flagged) (hp : w.phase ≠ .finished)
    (hpast : w.phase.pastFirst = true) (e : WatchError) : (w.watchFailed e).1.Flagged := by
  unfold Engine.watchFailed
  split <;> exact h.of_running hp nofun rfl fun _ => h.synced hpast

end Flags

variable [ClusterObject α]

/-! ## Steps -/

inductive Move (w : Engine α) : Input α → Step α → Prop
  | cancel : Move w .cancel ({ w with cancelled := true }, [])
  | noticeCancel : w.cancelled = true → w.phase ≠ .finished →
      Move w .noticeCancel w.finishCancelled
  | lateRequest {r} : w.phase = .finished → Move w (.request r) (w, [.answered r false])
  | request {r} : w.phase ≠ .finished →
      Move w (.request r) ({ w with requests := w.requests ++ [r] }, [])
  | noticeRequest {r rest} : w.phase = .reading → w.cancelled = false →
      w.requests = r :: rest →
      Move w .noticeRequest (askList (.relist (some r)) { w with requests := rest })
  | listed {p l} : w.phase = .listing p → Move w (.listed (.ok l)) (w.listSucceeded p l)
  | listFailed {p e} : w.phase = .listing p → Move w (.listed (.error e)) (w.listFailed p)
  | opened {u} : w.phase = .opening →
      Move w (.opened (.ok u)) ({ w with phase := .reading, failing := false }, [])
  | openFailed {e} : w.phase = .opening → Move w (.opened (.error e)) (w.watchFailed e)
  | received {e} : w.phase = .reading → w.cancelled = false → w.requests = [] →
      Move w (.received (.ok e))
        ({ w with collection := (w.collection.observe e).1 },
          (w.collection.observe e).2.map .call)
  | streamFailed {e} : w.phase = .reading → w.cancelled = false → w.requests = [] →
      Move w (.received (.error e)) (w.watchFailed e)
  | closed : w.phase = .reading → w.cancelled = false → w.requests = [] →
      Move w .closed w.waitForWatch
  | listAgain {p} : w.phase = .beforeList p → Move w .elapsed (w.askList p.again)
  | watchAgain : w.phase = .beforeWatch → Move w .elapsed w.openWatch

theorem move_of_step {w : Engine α} {i : Input α} {s : Step α} (h : w.step i = some s) :
    Move w i s := by
  cases i with
  | cancel =>
    cases h
    exact .cancel
  | request r =>
    simp only [step] at h
    split at h
    · cases h
      exact .lateRequest ‹_›
    · cases h
      exact .request ‹_›
  | noticeCancel =>
    simp only [step] at h
    split at h
    · rename_i hc
      cases h
      exact .noticeCancel hc.1 hc.2
    · cases h
  | noticeRequest =>
    simp only [step] at h
    split at h
    · cases h
      exact .noticeRequest ‹_› ‹_› ‹_›
    · cases h
  | listed answer =>
    simp only [step] at h
    split at h
    · cases h
      exact .listed ‹_›
    · cases h
      exact .listFailed ‹_›
    · cases h
  | opened answer =>
    simp only [step] at h
    split at h
    · cases h
      exact .opened ‹_›
    · cases h
      exact .openFailed ‹_›
    · cases h
  | received item =>
    simp only [step] at h
    split at h
    · cases h
      exact .received ‹_› ‹_› ‹_›
    · cases h
      exact .streamFailed ‹_› ‹_› ‹_›
    · cases h
  | closed =>
    simp only [step] at h
    split at h
    · cases h
      exact .closed ‹_› ‹_› ‹_›
    · cases h
  | elapsed =>
    simp only [step] at h
    split at h
    · cases h
      exact .listAgain ‹_›
    · cases h
      exact .watchAgain ‹_›
    · cases h

theorem calls_listSucceeded (w : Engine α) (p : Purpose) (l : Listing α) :
    ((w.listSucceeded p l).1.collection, callsOf (w.listSucceeded p l).2) =
      w.collection.replace l := by
  have hwatch (v : String) : callsOf [(.watch v : Output α)] = [] := rfl
  refine Prod.ext rfl ?_
  simp only [listSucceeded, openWatch, callsOf_append, callsOf_calls, callsOf_listOutputs, hwatch,
    List.append_nil]

/-- The collection after a step and the calls of the step are those of the input. -/
theorem step_change {w w' : Engine α} {i : Input α} {outputs : List (Output α)}
    (h : w.step i = some (w', outputs)) :
    w'.collection = (i.change w.collection).1 ∧ callsOf outputs = (i.change w.collection).2 := by
  have hmove := move_of_step h
  generalize hs : (w', outputs) = s at hmove
  obtain ⟨rfl, rfl⟩ : w' = s.1 ∧ outputs = s.2 := by simp [← hs]
  cases hmove with
  | listed hp => exact Prod.ext_iff.1 (calls_listSucceeded w _ _)
  | received hp hc hr => exact ⟨rfl, callsOf_calls _⟩
  | noticeCancel hc hp => exact silent_finishCancelled w
  | listFailed hp => exact silent_listFailed w _
  | openFailed hp => exact silent_watchFailed w _
  | streamFailed hp hc hr => exact silent_watchFailed w _
  | _ => exact ⟨rfl, rfl⟩

theorem flagged_of_move {w : Engine α} {i : Input α} {s : Step α} (hmove : Move w i s)
    (h : w.Flagged) : s.1.Flagged := by
  cases hmove with
  | cancel | lateRequest _ | request _ | received _ _ _ => exact ⟨h.synced, h.stopped⟩
  | noticeCancel _ _ =>
    rw [fst_finishCancelled]
    exact flagged_of_finished rfl rfl
  | @listed p l hp =>
    refine h.of_running (by simp [hp]) nofun rfl fun _ => ?_
    cases hfirst : p.isFirst with
    | true => simp [listSucceeded, openWatch, hfirst]
    | false =>
      have hsynced := h.synced (by rw [hp, Phase.pastFirst, hfirst]; rfl)
      simp [listSucceeded, openWatch, hsynced]
  | listFailed hp => exact h.listFailed hp
  | openFailed hp | streamFailed hp _ _ => exact h.watchFailed (by simp [hp]) (by rw [hp]; rfl) _
  | @listAgain p hp =>
    have hagain : p.again.isFirst = p.isFirst := by cases p <;> rfl
    refine h.of_running (by simp [hp]) nofun rfl fun hpast => h.synced ?_
    rw [hp, Phase.pastFirst, ← hagain]
    exact hpast
  | noticeRequest hp _ _ | opened hp | closed hp _ _ | watchAgain hp =>
    exact h.of_running (by simp [hp]) nofun rfl fun _ => h.synced (by rw [hp]; rfl)

/-! ## Runs -/

inductive Run (config : WatchConfig) (mode : StartMode) : History α → Engine α → Prop
  | start : Run config mode [] (Engine.start config mode).1
  | step {history w i w' outputs} : Run config mode history w → w.step i = some (w', outputs) →
      Run config mode (history ++ [(i, outputs)]) w'

theorem Run.flagged {config : WatchConfig} {mode : StartMode} {history : History α} {w : Engine α}
    (run : Run config mode history w) : w.Flagged := by
  induction run with
  | start => exact flagged_start config mode
  | step _ hstep ih => exact flagged_of_move (move_of_step hstep) ih

theorem Run.wellKeyed {config : WatchConfig} {mode : StartMode} {history : History α}
    {w : Engine α} (run : Run config mode history w)
    (distinct : ∀ i ∈ history.inputs, i.Distinct) : w.collection.WellKeyed := by
  induction run with
  | start =>
    rw [start_collection]
    exact Collection.wellKeyed_empty
  | @step history w i w' outputs run hstep ih =>
    obtain ⟨hbefore, hi⟩ := History.forall_inputs_append.1 distinct
    rw [(step_change hstep).1]
    exact Input.change_wellKeyed (ih hbefore) hi

def follow : List (Input α) → Engine α → Option (History α × Engine α)
  | [], w => some ([], w)
  | i :: is, w =>
    match w.step i with
    | some (w', outputs) => (follow is w').map fun r => ((i, outputs) :: r.1, r.2)
    | none => none

theorem inputs_of_follow {is : List (Input α)} {w w' : Engine α} {h : History α}
    (hf : follow is w = some (h, w')) : h.inputs = is := by
  induction is generalizing h w with
  | nil =>
    cases hf
    rfl
  | cons i is ih =>
    simp only [follow] at hf
    split at hf
    · obtain ⟨⟨t, last⟩, ht, he⟩ := Option.map_eq_some_iff.1 hf
      cases he
      exact congrArg (i :: ·) (ih ht)
    · cases hf

theorem Run.follow {config : WatchConfig} {mode : StartMode} {history h : History α}
    {w w' : Engine α} (run : Run config mode history w) {is : List (Input α)}
    (hf : Engine.follow is w = some (h, w')) : Run config mode (history ++ h) w' := by
  induction is generalizing history h w with
  | nil =>
    cases hf
    simpa using run
  | cons i is ih =>
    simp only [Engine.follow] at hf
    split at hf
    · rename_i next outputs hstep
      obtain ⟨⟨t, last⟩, ht, he⟩ := Option.map_eq_some_iff.1 hf
      cases he
      simpa using ih (run.step hstep) ht
    · cases hf

end Engine

def Pod.sample (name version phase : String) : Pod :=
  ⟨{ Metadata.empty with
      name := some name, space := some "default", version := some version,
      labels := some (.ofList [(machineLabel, "vm")]) }, some phase⟩

def Pod.inSpace (space : String) (p : Pod) : Pod :=
  { p with metadata.space := some space }

end BufferLedger
