import BufferLedger.Application
import BufferLedger.Proofs.Replacement

/-!
# The first list of a watch

A watch whose start waits for its first list begins with an empty copy, so the list is told object
by object. Attempts that fail leave everything as it was but the attempt's number, the time and
what the record says of requests and delays (`Waiting.fail`); the attempt that succeeds leaves the
copy, the calls of the list and a start that is over (`Waiting.succeed`). From then on, with nothing
more in the script, the watch follows a silent stream.
-/

namespace BufferLedger

open ClusterObject (key)

variable {α : Type} [ClusterObject α]

def Output.result? : Output α → Option (Except WatchError Unit)
  | .started result => some result
  | _ => none

theorem Engine.step_listFailed {w : Engine α} {attempt : Nat} {e : WatchError}
    (hphase : w.phase = .listing (.start attempt)) (hlimit : w.givesUp attempt = false) :
    w.step (.listed (.error e)) =
      some ({ w with failing := true, phase := .beforeList (.start attempt) }, [.delay .list]) := by
  simp only [step, hphase]
  exact congrArg some (if_neg (Bool.eq_false_iff.1 hlimit))

namespace Rehearsal

/-! ## The record -/

section Record

variable {α : Type} {s : Rehearsal α}

theorem note_eq (outputs : List (Output α)) (s : Rehearsal α) :
    ∃ wake, note outputs s =
      { s with record := (outputs.map fun o => (s.now, o)).reverse ++ s.record, wake } := by
  induction outputs generalizing s with
  | nil => exact ⟨s.wake, rfl⟩
  | cons o outputs ih =>
    cases o with
    | delay kind =>
      obtain ⟨wake, h⟩ := ih
        { s with
          record := (s.now, .delay kind) :: s.record
          wake := s.now + delayNanos s.engine.config kind }
      exact ⟨wake, by simpa [note] using h⟩
    | list | watch _ | call _ | started _ | answered _ _ =>
      obtain ⟨wake, h⟩ := ih { s with record := (s.now, _) :: s.record }
      exact ⟨wake, by simpa [note] using h⟩

theorem note_engine (outputs : List (Output α)) (s : Rehearsal α) :
    (note outputs s).engine = s.engine := by
  obtain ⟨wake, h⟩ := note_eq outputs s
  rw [h]

theorem note_opens (outputs : List (Output α)) (s : Rehearsal α) :
    (note outputs s).opens = s.opens := by
  obtain ⟨wake, h⟩ := note_eq outputs s
  rw [h]

theorem note_now (outputs : List (Output α)) (s : Rehearsal α) :
    (note outputs s).now = s.now := by
  obtain ⟨wake, h⟩ := note_eq outputs s
  rw [h]

theorem timedWork_note (outputs : List (Output α)) (s : Rehearsal α)
    (work : Call α → List WorkItem) :
    (note outputs s).timedWork work =
      s.timedWork work ++ ((callsOf outputs).flatMap work).map fun item => (s.now, item) := by
  obtain ⟨wake, h⟩ := note_eq outputs s
  rw [h]
  simp only [timedWork, List.reverse_append, List.reverse_reverse, List.flatMap_append]
  apply congrArg
  clear h
  induction outputs with
  | nil => rfl
  | cons o outputs ih => cases o <;> simpa [callsOf, Output.call?, List.filterMap_cons] using ih

theorem started_note (outputs : List (Output α)) (s : Rehearsal α) :
    (note outputs s).started? = s.started?.or (outputs.findSome? Output.result?) := by
  obtain ⟨wake, h⟩ := note_eq outputs s
  rw [h]
  simp only [started?, List.reverse_append, List.reverse_reverse, List.findSome?_append]
  apply congrArg
  rw [List.findSome?_map]
  exact congrArg (List.findSome? · outputs) (funext fun o => by cases o <;> rfl)

def Uneventful (record : List (Nat × Output α)) : Prop :=
  ∀ e ∈ record, e.2 = .list ∨ ∃ kind, e.2 = .delay kind

theorem Uneventful.cons {record : List (Nat × Output α)} {e : Nat × Output α}
    (h : Uneventful record) (he : e.2 = .list ∨ ∃ kind, e.2 = .delay kind) :
    Uneventful (e :: record) :=
  List.forall_mem_cons.2 ⟨he, h⟩

theorem started_of_uneventful (h : Uneventful s.record) : s.started? = none := by
  rw [started?, List.findSome?_eq_none_iff]
  rintro ⟨time, o⟩ ho
  rcases h _ (List.mem_reverse.1 ho) with rfl | ⟨kind, rfl⟩ <;> rfl

theorem timedWork_of_uneventful (h : Uneventful s.record) (work : Call α → List WorkItem) :
    s.timedWork work = [] := by
  rw [timedWork, List.flatMap_eq_nil_iff]
  rintro ⟨time, o⟩ ho
  rcases h _ (List.mem_reverse.1 ho) with rfl | ⟨kind, rfl⟩ <;> rfl

end Record

/-! ## Steps of a start -/

variable {s : Rehearsal α} {attempt fuel : Nat}

theorem feed_of_step {i : Input α} {w : Engine α} {outputs : List (Output α)}
    (h : s.engine.step i = some (w, outputs)) :
    s.feed i = note outputs { s with engine := w } := by
  simp only [feed, h]

theorem runUntilStarted_of_next {time : Nat} {i : Input α} {s' : Rehearsal α}
    (hstart : s.started? = none) (hnext : s.next? = some (time, i, s')) :
    s.runUntilStarted (fuel + 1) = (s'.feed i).runUntilStarted fuel := by
  simp [runUntilStarted, hstart, hnext]

theorem runUntilStarted_of_started {result : Except WatchError Unit}
    (h : s.started? = some result) : s.runUntilStarted fuel = s := by
  cases fuel with
  | zero => rfl
  | succ fuel => simp [runUntilStarted, h]

/-- The first list has been asked for and not been answered, for so many times. -/
structure Waiting (attempt : Nat) (s : Rehearsal α) : Prop where
  phase : s.engine.phase = .listing (.start attempt)
  running : s.engine.cancelled = false
  fresh : s.engine.collection = .empty
  unasked : s.engine.requests = []
  unopened : s.opens = []
  uneventful : Uneventful s.record

omit [ClusterObject α] in
theorem waiting_start (config : WatchConfig) (lists : List (Except WatchError (Listing α)))
    (now : Nat) : Waiting 1 (start config .waiting ⟨lists, []⟩ now) := by
  refine ⟨rfl, rfl, rfl, rfl, rfl, ?_⟩
  intro e he
  obtain rfl := List.mem_singleton.1 he
  exact .inl rfl

omit [ClusterObject α] in
theorem Waiting.next (h : Waiting attempt s) {answer : Except WatchError (Listing α)}
    {rest : List (Except WatchError (Listing α))} (hlists : s.lists = answer :: rest) :
    s.next? = some (s.now, .listed answer, { s with lists := rest }) := by
  simp [next?, h.running, h.phase, hlists]

theorem Waiting.fail (h : Waiting attempt s) {e : WatchError}
    {rest : List (Except WatchError (Listing α))} (hlists : s.lists = .error e :: rest)
    (hlimit : s.engine.givesUp attempt = false) (fuel : Nat) :
    ∃ s', s.runUntilStarted (fuel + 2) = s'.runUntilStarted fuel ∧ Waiting (attempt + 1) s' ∧
      s'.lists = rest ∧ s'.engine.config = s.engine.config ∧ s.now ≤ s'.now := by
  let w : Engine α := { s.engine with failing := true, phase := .beforeList (.start attempt) }
  have hfailed : s.engine.step (.listed (.error e)) = some (w, [.delay .list]) :=
    Engine.step_listFailed h.phase hlimit
  let waiting := note [.delay .list] { s with lists := rest, engine := w }
  have huneventful : Uneventful waiting.record := h.uneventful.cons (.inr ⟨.list, rfl⟩)
  let time := max s.now waiting.wake
  have hnext : waiting.next? = some (time, .elapsed, { waiting with now := time }) := by
    simp [next?, waiting, note, w, h.running, time]
  let again : Engine α := { w with phase := .listing (.start (attempt + 1)) }
  have helapsed : waiting.engine.step .elapsed = some (again, [.list]) := rfl
  refine ⟨note [.list] { waiting with now := time, engine := again }, ?_, ?_, rfl, rfl,
    Nat.le_max_left _ _⟩
  · rw [runUntilStarted_of_next (started_of_uneventful h.uneventful) (h.next hlists),
      feed_of_step (s := { s with lists := rest }) hfailed,
      runUntilStarted_of_next (started_of_uneventful huneventful) hnext,
      feed_of_step (s := { waiting with now := time }) helapsed]
  · exact ⟨rfl, h.running, h.fresh, h.unasked, h.unopened, huneventful.cons (.inl rfl)⟩

/-- The start is over: all that was listed is in the copy and was told at one time. The watch
comes to a stream that stays silent. -/
structure Listed (l : Listing α) (time : Nat) (s : Rehearsal α) : Prop where
  collection : s.engine.collection = (Collection.empty.replace l).1
  told : ∀ work, s.timedWork work =
    (l.items.flatMap fun x => work (.add x)).map fun item => (time, item)
  finished : s.started? = some (.ok ())
  running : s.engine.cancelled = false
  unasked : s.engine.requests = []
  unopened : s.opens = []
  silent : s.engine.phase = .opening ∨ s.engine.phase = .reading ∧ s.stream = ⟨[], false⟩

theorem Waiting.succeed (h : Waiting attempt s) {l : Listing α}
    {rest : List (Except WatchError (Listing α))} (hlists : s.lists = .ok l :: rest) (fuel : Nat) :
    Listed l s.now (s.runUntilStarted (fuel + 1)) ∧
      (s.runUntilStarted (fuel + 1)).now = s.now := by
  let change := Collection.empty.replace l
  let w : Engine α :=
    { s.engine with
      phase := .opening, collection := change.1, synced := true, failing := false }
  let outputs : List (Output α) :=
    change.2.map .call ++ [.started (.ok ()), .watch w.collection.version]
  have hlisted : s.engine.step (.listed (.ok l)) = some (w, outputs) := by
    simp [Engine.step, h.phase, Engine.listSucceeded, Engine.listOutputs, Engine.openWatch,
      Purpose.isFirst, h.fresh, w, outputs, change]
  let listed := note outputs { s with lists := rest, engine := w }
  have hover : listed.started? = some (.ok ()) := by
    have hbefore : Rehearsal.started? { s with lists := rest, engine := w } = none :=
      started_of_uneventful h.uneventful
    have hcalls : (change.2.map Output.call).findSome? Output.result? = none := by
      rw [List.findSome?_map]
      exact List.findSome?_eq_none_iff.2 fun _ _ => rfl
    rw [started_note, hbefore, List.findSome?_append, hcalls]
    rfl
  have htold (work : Call α → List WorkItem) : listed.timedWork work =
      (l.items.flatMap fun x => work (.add x)).map fun item => (s.now, item) := by
    have hbefore : Rehearsal.timedWork work { s with lists := rest, engine := w } = [] :=
      timedWork_of_uneventful h.uneventful work
    have hcalls : callsOf outputs = l.items.map .add := by
      rw [callsOf_append, callsOf_calls, Collection.calls_replace_empty]
      exact List.append_nil _
    rw [timedWork_note, hbefore, hcalls, List.flatMap_map]
    rfl
  have hfirst : s.runUntilStarted (fuel + 1) = listed := by
    rw [runUntilStarted_of_next (started_of_uneventful h.uneventful) (h.next hlists),
      feed_of_step (s := { s with lists := rest }) hlisted]
    exact runUntilStarted_of_started hover
  have hengine : listed.engine = w := note_engine outputs _
  rw [hfirst]
  refine ⟨⟨?_, htold, hover, ?_, ?_, ?_, ?_⟩, note_now outputs _⟩
  · exact congrArg (·.collection) hengine
  · exact (congrArg (·.cancelled) hengine).trans h.running
  · exact (congrArg (·.requests) hengine).trans h.unasked
  · exact (note_opens outputs _).trans h.unopened
  · exact .inl (congrArg (·.phase) hengine)

theorem Waiting.listed {l : Listing α} {failures : List WatchError} (h : Waiting attempt s)
    (hlists : s.lists = failures.map .error ++ [.ok l])
    (hlimit : ∀ limit, s.engine.config.attempts = some limit → attempt + failures.length ≤ limit)
    (hfuel : 2 * failures.length < fuel) :
    ∃ time, s.now ≤ time ∧ Listed l time (s.runUntilStarted fuel) ∧
      (s.runUntilStarted fuel).now = time := by
  -- Each failure takes two steps: the answer, and the end of the delay after it.
  induction failures generalizing s attempt fuel with
  | nil =>
    obtain ⟨fuel, rfl⟩ : ∃ n, fuel = n + 1 := ⟨fuel - 1, by omega⟩
    exact ⟨s.now, Nat.le_refl _, h.succeed hlists fuel⟩
  | cons e failures ih =>
    obtain ⟨fuel, rfl⟩ : ∃ n, fuel = n + 2 := ⟨fuel - 2, by simp at hfuel; omega⟩
    have hgoes : s.engine.givesUp attempt = false := by
      unfold Engine.givesUp
      split
      · rename_i limit hattempts
        have hbelow := hlimit limit hattempts
        simp at hbelow ⊢
        omega
      · rfl
    obtain ⟨s', hs', h', hlists', hconfig, hnow⟩ := h.fail hlists hgoes fuel
    have hrest : ∀ limit, s'.engine.config.attempts = some limit →
        attempt + 1 + failures.length ≤ limit := by
      intro limit hattempts
      have hbelow := hlimit limit (hconfig ▸ hattempts)
      simp at hbelow
      omega
    have hfuel' : 2 * failures.length < fuel := by
      simp at hfuel
      omega
    rw [hs']
    obtain ⟨time, htime, hlisted⟩ := ih h' hlists' hrest hfuel'
    exact ⟨time, Nat.le_trans hnow htime, hlisted⟩

theorem Listed.next {l : Listing α} {time t : Nat} {i : Input α} {s s' : Rehearsal α}
    (h : Listed l time s) (hnext : s.next? = some (t, i, s')) : Listed l time (s'.feed i) := by
  rcases h.silent with hphase | ⟨hphase, hstream⟩
  · obtain ⟨-, rfl, rfl⟩ : s.now = t ∧ .opened (.ok ()) = i ∧
        { s with stream := ⟨[], false⟩ } = s' := by
      simpa [next?, h.running, hphase, h.unopened] using hnext
    have hopened : s.engine.step (.opened (.ok ())) =
        some ({ s.engine with phase := .reading, failing := false }, []) := by
      simp [Engine.step, hphase]
    rw [feed_of_step (s := { s with stream := ⟨[], false⟩ }) hopened]
    exact ⟨h.collection, h.told, h.finished, h.running, h.unasked, h.unopened, .inr ⟨rfl, rfl⟩⟩
  · simp [next?, h.running, hphase, h.unasked, hstream] at hnext

theorem Listed.runUntil {l : Listing α} {time : Nat} {s : Rehearsal α} (h : Listed l time s)
    (deadline fuel : Nat) : Listed l time (s.runUntil deadline fuel) := by
  induction fuel generalizing s with
  | zero => exact h
  | succ fuel ih =>
    unfold Rehearsal.runUntil
    split
    · rename_i t i s' hnext
      split
      · exact ih (h.next hnext)
      · exact h
    · exact h

theorem Listed.advance {l : Listing α} {time : Nat} {s : Rehearsal α} (h : Listed l time s)
    (nanos : Nat) : Listed l time (s.advance nanos) := by
  have hrun := h.runUntil (s.now + nanos) s.remaining
  exact ⟨hrun.collection, hrun.told, hrun.finished, hrun.running, hrun.unasked, hrun.unopened,
    hrun.silent⟩

theorem listed_started {l : Listing α} {config : WatchConfig} {failures : List WatchError}
    (hlimit : ∀ limit, config.attempts = some limit → failures.length < limit) (now : Nat) :
    ∃ time, now ≤ time ∧
      Listed l time (started config ⟨failures.map .error ++ [.ok l], []⟩ now) ∧
      (started config ⟨failures.map .error ++ [.ok l], []⟩ now).now = time := by
  let s : Rehearsal α := start config .waiting ⟨failures.map .error ++ [.ok l], []⟩ now
  have hattempts : ∀ limit, s.engine.config.attempts = some limit →
      1 + failures.length ≤ limit := by
    intro limit h
    have hbelow := hlimit limit h
    omega
  have hfuel : 2 * failures.length < s.remaining := by
    have hlists : s.lists.length = failures.length + 1 := by
      simp [s, start, note, Engine.start]
    simp only [remaining, hlists]
    omega
  exact (waiting_start config _ now).listed rfl hattempts hfuel

end Rehearsal

end BufferLedger
