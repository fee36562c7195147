import Mathlib.Data.List.Induction
import BufferLedger.Proofs.EngineRun

/-!
# Stretches of a run

What a watch does from some state on. A run can be cut anywhere: up to the cut it is a run, and the
rest is a stretch from the state there (`Engine.Run.split`). So a statement about all that comes
after something is an induction along a stretch.
-/

namespace BufferLedger

namespace Engine

variable {α : Type} [ClusterObject α]

inductive Stretch : Engine α → History α → Engine α → Prop
  | nil {w} : Stretch w [] w
  | cons {w i w' outputs h last} : w.step i = some (w', outputs) → Stretch w' h last →
      Stretch w ((i, outputs) :: h) last

section Cuts

variable {config : WatchConfig} {mode : StartMode} {history before after h : History α}
  {u w w' : Engine α} {i : Input α} {outputs : List (Output α)}

theorem Stretch.snoc (stretch : Stretch w h w') (hstep : w'.step i = some (u, outputs)) :
    Stretch w (h ++ [(i, outputs)]) u := by
  induction stretch with
  | nil => exact .cons hstep .nil
  | cons hfirst _ ih => exact .cons hfirst (ih hstep)

theorem Run.last (run : Run config mode (history ++ [(i, outputs)]) w') :
    ∃ w, Run config mode history w ∧ w.step i = some (w', outputs) := by
  generalize h : history ++ [(i, outputs)] = all at run
  cases run with
  | start => simp at h
  | step run hstep =>
    obtain ⟨rfl, he⟩ := List.append_inj' h rfl
    cases he
    exact ⟨_, run, hstep⟩

theorem Run.split (run : Run config mode (before ++ after) w') :
    ∃ w, Run config mode before w ∧ Stretch w after w' := by
  induction after using List.reverseRecOn generalizing w' with
  | nil => exact ⟨w', by simpa using run, .nil⟩
  | append_singleton after e ih =>
    obtain ⟨i, outputs⟩ := e
    rw [← List.append_assoc] at run
    obtain ⟨v, hrun, hstep⟩ := run.last
    obtain ⟨w, hbefore, hafter⟩ := ih hrun
    exact ⟨w, hbefore, hafter.snoc hstep⟩

theorem Run.split_at (run : Run config mode (before ++ (i, outputs) :: after) u) :
    ∃ w w', Run config mode before w ∧ w.step i = some (w', outputs) ∧ Stretch w' after u := by
  obtain ⟨w, hbefore, hafter⟩ := run.split
  cases hafter with
  | cons hstep hrest => exact ⟨w, _, hbefore, hstep, hrest⟩

end Cuts

theorem Stretch.always (good : Engine α → Prop) (like : Input α → List (Output α) → Prop)
    (hstep : ∀ {w : Engine α} {i : Input α} {s : Step α}, good w → Move w i s →
      good s.1 ∧ like i s.2)
    {w w' : Engine α} {h : History α} (stretch : Stretch w h w') (hw : good w) :
    good w' ∧ ∀ e ∈ h, like e.1 e.2 := by
  induction stretch with
  | nil => exact ⟨hw, by simp⟩
  | cons hfirst _ ih =>
    obtain ⟨hgood, hlike⟩ := hstep hw (move_of_step hfirst)
    obtain ⟨hlast, hrest⟩ := ih hgood
    exact ⟨hlast, List.forall_mem_cons.2 ⟨hlike, hrest⟩⟩

/-! ## Steps of a kind -/

theorem reading_of_received {w : Engine α} {item : Except WatchError (WatchEvent α)} {s : Step α}
    (hmove : Move w (.received item) s) :
    w.phase = .reading ∧ w.cancelled = false ∧ w.requests = [] := by
  cases hmove with
  | received hp hc hr | streamFailed hp hc hr => exact ⟨hp, hc, hr⟩

/-- The watch has stopped, and shows what it does in another state. -/
structure Frozen (w v : Engine α) : Prop where
  stopped : v.stopped = true
  collection : v.collection = w.collection
  synced : v.synced = w.synced
  failing : v.failing = w.failing

theorem frozen_of_stopped {w : Engine α} {i : Input α} {s : Step α} (hmove : Move w i s)
    (hw : w.Flagged) (h : w.stopped = true) :
    Frozen w s.1 ∧ ∀ o ∈ s.2, ∃ r, o = .answered r false := by
  have hphase := hw.stopped.1 h
  cases hmove with
  | cancel => exact ⟨⟨h, rfl, rfl, rfl⟩, by simp⟩
  | lateRequest _ => exact ⟨⟨h, rfl, rfl, rfl⟩, by simp⟩
  | noticeCancel _ hp | request hp => exact absurd hphase hp
  | noticeRequest hp _ _ | listed hp | listFailed hp | opened hp | openFailed hp | received hp _ _
  | streamFailed hp _ _ | closed hp _ _ | listAgain hp | watchAgain hp =>
    rw [hphase] at hp
    cases hp

omit [ClusterObject α] in
theorem Frozen.trans {u v w : Engine α} (h : Frozen u v) (h' : Frozen v w) : Frozen u w :=
  ⟨h'.stopped, h'.collection.trans h.collection, h'.synced.trans h.synced,
    h'.failing.trans h.failing⟩

theorem Stretch.frozen {w v : Engine α} {h : History α} (stretch : Stretch w h v) (hw : w.Flagged)
    (hstopped : w.stopped = true) :
    Frozen w v ∧ ∀ e ∈ h, ∀ o ∈ e.2, ∃ r, o = .answered r false := by
  have hstep {u : Engine α} {i : Input α} {s : Step α} (hu : u.Flagged ∧ Frozen w u)
      (hmove : Move u i s) :
      (s.1.Flagged ∧ Frozen w s.1) ∧ ∀ o ∈ s.2, ∃ r, o = .answered r false := by
    obtain ⟨hfrozen, hrefuses⟩ := frozen_of_stopped hmove hu.1 hu.2.stopped
    exact ⟨⟨flagged_of_move hmove hu.1, hu.2.trans hfrozen⟩, hrefuses⟩
  obtain ⟨⟨-, hlast⟩, hrefused⟩ := stretch.always (fun u => u.Flagged ∧ Frozen w u)
    (fun _ outputs => ∀ o ∈ outputs, ∃ r, o = .answered r false) hstep
    ⟨hw, hstopped, rfl, rfl, rfl⟩
  exact ⟨hlast, hrefused⟩

end Engine

def Input.podList (version : String) (names : List String) : Input Pod :=
  .listed (.ok ⟨some version, names.map fun name => .sample name version "Running"⟩)

end BufferLedger
