import Mathlib.Data.Nat.Find
import BufferLedger.Proofs.Conversation
import BufferLedger.Proofs.Replacement

/-!
# How long a start tries

A start that waits for its first list asks for one after the other until one comes or as many as it
is allowed have failed. While it tries nothing is told and the copy stays empty (`Engine.Trying`);
the attempt that ends it decides everything else (`Engine.start_patience`).
-/

namespace BufferLedger

open ClusterObject (key)

variable {α : Type}

abbrev Outcomes (α : Type) := Nat → Except WatchError (Listing α)

def Input.list? : Input α → Option (Except WatchError (Listing α))
  | .listed answer => some answer
  | _ => none

/-- After how many requests a start is to be over, and how: with the first list that comes, or when
as many as are allowed have failed. -/
inductive Ends (config : WatchConfig) (outcome : Outcomes α) :
    Nat → Except WatchError (Listing α) → Prop
  | lists {k l} : (∀ j < k, ∃ e, outcome j = .error e) → outcome k = .ok l →
      (∀ n, config.attempts = some n → k < n) → Ends config outcome (k + 1) (.ok l)
  | fails {n} : config.attempts = some n → (∀ j < n, ∃ e, outcome j = .error e) →
      Ends config outcome n (.error (.firstListFailed config.name n))

section Ends

variable {config : WatchConfig} {outcome : Outcomes α} {k k' m : Nat}
  {r r' : Except WatchError (Listing α)} {l l' : Listing α}

theorem not_lt_of_ok (hfails : ∀ j < m, ∃ e, outcome j = .error e) (hok : outcome k = .ok l) :
    ¬ k < m := by
  intro hk
  obtain ⟨e, he⟩ := hfails k hk
  rw [hok] at he
  cases he

theorem Ends.unique (h : Ends config outcome k r) (h' : Ends config outcome k' r') :
    k = k' ∧ r = r' := by
  cases h with
  | lists hfails hok hbelow =>
    cases h' with
    | lists hfails' hok' _ =>
      obtain rfl := Nat.le_antisymm (Nat.le_of_not_lt (not_lt_of_ok hfails hok'))
        (Nat.le_of_not_lt (not_lt_of_ok hfails' hok))
      rw [hok] at hok'
      exact ⟨rfl, hok'⟩
    | fails hlimit hfails' => exact absurd (hbelow _ hlimit) (not_lt_of_ok hfails' hok)
  | fails hlimit hfails =>
    cases h' with
    | lists _ hok' hbelow' => exact absurd (hbelow' _ hlimit) (not_lt_of_ok hfails hok')
    | fails hlimit' _ =>
      obtain rfl := Option.some.inj (hlimit.symm.trans hlimit')
      exact ⟨rfl, rfl⟩

theorem Ends.lt (h : Ends config outcome k r) (hfails : ∀ j < m, ∃ e, outcome j = .error e)
    (hbelow : ∀ n, config.attempts = some n → m < n) : m < k := by
  cases h with
  | lists _ hok _ => exact Nat.lt_succ_of_le (Nat.le_of_not_lt (not_lt_of_ok hfails hok))
  | fails hlimit _ => exact hbelow _ hlimit

theorem exists_ends (h : config.attempts ≠ none ∨ ∃ j l, outcome j = .ok l) :
    ∃ k r, Ends config outcome k r := by
  classical
  -- If a list comes within the limit the first one ends the start, and otherwise the limit does.
  by_cases hlist : ∃ j, (∃ l, outcome j = .ok l) ∧ ∀ n, config.attempts = some n → j < n
  · obtain ⟨⟨l, hl⟩, hbelow⟩ := Nat.find_spec hlist
    refine ⟨_, _, .lists (fun j hj => ?_) hl hbelow⟩
    cases hanswer : outcome j with
    | error e => exact ⟨e, rfl⟩
    | ok l' =>
      have hfirst := Nat.find_min hlist hj
      exact absurd ⟨⟨l', hanswer⟩, fun n hn => Nat.lt_trans hj (hbelow n hn)⟩ hfirst
  · cases hlimit : config.attempts with
    | none =>
      obtain ⟨j, hj⟩ := h.resolve_left (not_not_intro hlimit)
      exact absurd ⟨j, hj, by simp [hlimit]⟩ hlist
    | some n =>
      refine ⟨_, _, .fails hlimit fun j hj => ?_⟩
      cases hanswer : outcome j with
      | error e => exact ⟨e, rfl⟩
      | ok l =>
        have hbelow : ∀ m, config.attempts = some m → j < m := by
          rintro m hm
          obtain rfl := Option.some.inj (hlimit.symm.trans hm)
          exact hj
        exact absurd ⟨j, ⟨l, hanswer⟩, hbelow⟩ hlist

end Ends

namespace Engine

def History.lists (h : History α) : List (Except WatchError (Listing α)) :=
  h.inputs.filterMap Input.list?

def History.asked (config : WatchConfig) (h : History α) : Nat :=
  (actsOf config (deeds config .waiting h)).count .list

theorem History.lists_append (h : History α) (i : Input α) (outputs : List (Output α)) :
    lists (h ++ [(i, outputs)]) = lists h ++ i.list?.toList := by
  cases hi : i.list? <;> simp [lists, inputs_append, hi]

theorem History.asked_append (config : WatchConfig) (h : History α) (i : Input α)
    (outputs : List (Output α)) :
    asked config (h ++ [(i, outputs)]) = asked config h + (actsOf config outputs).count .list := by
  simp [asked, deeds_append, actsOf_append]

variable [ClusterObject α] {config : WatchConfig} {outcome : Outcomes α} {history : History α}
  {w w' : Engine α} {i : Input α} {outputs : List (Output α)} {p : Purpose} {k : Nat}
  {r : Except WatchError (Listing α)} {e : WatchError} {l : Listing α}

/-! ## One attempt -/

omit [ClusterObject α] in
theorem givesUp_iff {attempt : Nat} :
    w.givesUp attempt = true ↔ ∃ n, w.config.attempts = some n ∧ n ≤ attempt := by
  unfold givesUp
  split <;> simp_all

omit [ClusterObject α] in
theorem listFailed_of_givesUp {attempt : Nat} (h : w.givesUp attempt = true) :
    w.listFailed (.start attempt) =
      failStart (.firstListFailed w.config.name attempt) { w with failing := true } :=
  if_pos h

omit [ClusterObject α] in
theorem listFailed_of_not_givesUp {attempt : Nat} (h : w.givesUp attempt = false) :
    w.listFailed (.start attempt) =
      ({ w with failing := true, phase := .beforeList (.start attempt) }, [.delay .list]) :=
  if_neg (Bool.eq_false_iff.1 h)

/-- A start has asked for lists and got none so far. It waits for the next answer or for the end of
a delay. -/
structure Trying (config : WatchConfig) (h : History α) (w : Engine α) : Prop where
  config_eq : w.config = config
  failed : ∀ a ∈ h.lists, ∃ e, a = .error e
  silent : h.calls = []
  fresh : w.collection = .empty
  below : ∀ n, config.attempts = some n → h.lists.length < n
  waits : w.phase = .listing (.start (h.lists.length + 1)) ∧ h.asked config = h.lists.length + 1 ∨
    w.phase = .beforeList (.start h.lists.length) ∧ h.asked config = h.lists.length

omit [ClusterObject α] in
theorem trying_start (positive : config.attempts ≠ some 0) :
    Trying config ([] : History α) (Engine.start config .waiting).1 := by
  refine ⟨rfl, by simp [History.lists, History.inputs], rfl, rfl, ?_, .inl ⟨rfl, rfl⟩⟩
  rintro n hn
  exact Nat.pos_of_ne_zero fun h => positive (h ▸ hn)

omit [ClusterObject α] in
theorem Trying.starting (h : Trying config history w) : w.phase.starting = true := by
  rcases h.waits with ⟨hp, -⟩ | ⟨hp, -⟩ <;> rw [hp] <;> rfl

omit [ClusterObject α] in
theorem Trying.of_listing (h : Trying config history w) (hp : w.phase = .listing p) :
    p = .start (history.lists.length + 1) ∧ history.asked config = history.lists.length + 1 := by
  rcases h.waits with ⟨hp', hasked⟩ | ⟨hp', -⟩ <;> rw [hp] at hp' <;> cases hp'
  exact ⟨rfl, hasked⟩

omit [ClusterObject α] in
theorem Trying.of_beforeList (h : Trying config history w) (hp : w.phase = .beforeList p) :
    p = .start history.lists.length ∧ history.asked config = history.lists.length := by
  rcases h.waits with ⟨hp', -⟩ | ⟨hp', hasked⟩ <;> rw [hp] at hp' <;> cases hp'
  exact ⟨rfl, hasked⟩

omit [ClusterObject α] in
theorem Trying.quiet_step (h : Trying config history w) (hi : i.list? = none)
    (hcalls : callsOf outputs = []) (hconfig : w'.config = w.config)
    (hcollection : w'.collection = w.collection)
    (hwaits : w'.phase = .listing (.start (history.lists.length + 1)) ∧
        history.asked config + (actsOf config outputs).count .list = history.lists.length + 1 ∨
      w'.phase = .beforeList (.start history.lists.length) ∧
        history.asked config + (actsOf config outputs).count .list = history.lists.length) :
    Trying config (history ++ [(i, outputs)]) w' := by
  have hlists : History.lists (history ++ [(i, outputs)]) = history.lists := by
    rw [History.lists_append, hi]
    exact List.append_nil _
  refine ⟨hconfig.trans h.config_eq, ?_, ?_, hcollection.trans h.fresh, ?_, ?_⟩
  · rw [hlists]
    exact h.failed
  · rw [History.calls_append, h.silent, hcalls]
    rfl
  · rw [hlists]
    exact h.below
  · rw [hlists, History.asked_append]
    exact hwaits

omit [ClusterObject α] in
theorem Trying.of_listFailed (h : Trying config history w)
    (hp : w.phase = .listing (.start (history.lists.length + 1)))
    (hgoes : w.givesUp (history.lists.length + 1) = false) :
    Trying config (history ++ [(.listed (.error e), [.delay .list])])
      { w with failing := true, phase := .beforeList (.start (history.lists.length + 1)) } := by
  have hlists : History.lists (history ++ [(.listed (.error e), [.delay .list])]) =
      history.lists ++ [.error e] := History.lists_append ..
  have hlength : (History.lists (history ++ [(.listed (.error e), [.delay .list])])).length =
      history.lists.length + 1 := by
    rw [hlists, List.length_append, List.length_singleton]
  refine ⟨h.config_eq, ?_, ?_, h.fresh, ?_, .inr ⟨?_, ?_⟩⟩
  · rw [hlists, List.forall_mem_append]
    exact ⟨h.failed, by simp⟩
  · rw [History.calls_append, h.silent]
    rfl
  · rw [hlength]
    intro n hn
    have hlimit : ¬ n ≤ history.lists.length + 1 := by
      intro hle
      rw [givesUp_iff.2 ⟨n, h.config_eq ▸ hn, hle⟩] at hgoes
      cases hgoes
    exact Nat.lt_of_not_le hlimit
  · rw [hlength]
  · rw [hlength, History.asked_append, (h.of_listing hp).2]
    rfl

inductive Decides (config : WatchConfig) (history : History α) (w : Engine α) :
    Input α → Step α → Prop
  | listed {l : Listing α} : Decides config history w (.listed (.ok l))
      (w.listSucceeded (.start (history.lists.length + 1)) l)
  | givesUp {e : WatchError} : config.attempts = some (history.lists.length + 1) →
      Decides config history w (.listed (.error e))
        (w.listFailed (.start (history.lists.length + 1)))

theorem Trying.next {s : Step α} (h : Trying config history w) (hc : w.cancelled = false)
    (hi : i ≠ .cancel) (hmove : Move w i s) :
    Trying config (history ++ [(i, s.2)]) s.1 ∨
      w.phase = .listing (.start (history.lists.length + 1)) ∧ Decides config history w i s := by
  cases hmove with
  | cancel => exact absurd rfl hi
  | request _ => exact .inl (h.quiet_step rfl rfl rfl rfl h.waits)
  | @listed p l hp =>
    obtain ⟨rfl, -⟩ := h.of_listing hp
    exact .inr ⟨hp, .listed⟩
  | @listFailed p e hp =>
    obtain ⟨rfl, -⟩ := h.of_listing hp
    cases hgives : w.givesUp (history.lists.length + 1) with
    | true =>
      obtain ⟨n, hn, hle⟩ := givesUp_iff.1 hgives
      rw [h.config_eq] at hn
      have hlimit : n = history.lists.length + 1 := Nat.le_antisymm hle (h.below n hn)
      exact .inr ⟨hp, .givesUp (hlimit ▸ hn)⟩
    | false =>
      rw [listFailed_of_not_givesUp hgives]
      exact .inl (h.of_listFailed hp hgives)
  | @listAgain p hp =>
    obtain ⟨rfl, hasked⟩ := h.of_beforeList hp
    exact .inl (h.quiet_step rfl rfl rfl rfl (.inl ⟨rfl, congrArg (· + 1) hasked⟩))
  | noticeCancel hcancelled _ =>
    rw [hc] at hcancelled
    cases hcancelled
  | lateRequest hp | noticeRequest hp _ _ | opened hp | openFailed hp | received hp _ _
  | streamFailed hp _ _ | closed hp _ _ | watchAgain hp =>
    have hstarting := h.starting
    rw [hp] at hstarting
    cases hstarting

/-! ## The end of a start -/

/-- The watch has the objects of a list, of two with one key the later one, and nothing is amiss. -/
structure Holds (l : Listing α) (w : Engine α) : Prop where
  objects : ∀ k, w.collection.objects.get? k = l.items.reverse.find? fun x => key x = k
  version : w.collection.version = l.version.getD ""
  synced : w.synced = true
  failing : w.failing = false

theorem holds_of_listSucceeded (h : Trying config history w) (l : Listing α)
    (hfirst : p.isFirst = true) :
    Holds l (w.listSucceeded p l).1 ∧ callsOf (w.listSucceeded p l).2 = l.items.map .add := by
  have hcalls : callsOf (w.listSucceeded p l).2 = (w.collection.replace l).2 :=
    congrArg Prod.snd (calls_listSucceeded w p l)
  rw [h.fresh, Collection.calls_replace_empty] at hcalls
  have hsynced : (w.listSucceeded p l).1.synced = true := by
    simp [listSucceeded, openWatch, hfirst]
  exact ⟨⟨Collection.get?_replace l w.collection, rfl, hsynced, rfl⟩, hcalls⟩

/-- A run of a watch whose start waits for a list. It is not cancelled, and its requests for lists
have been answered by the first of the outcomes. -/
structure AnsweredRun (config : WatchConfig) (outcome : Outcomes α) (history : History α)
    (w : Engine α) : Prop where
  run : Run config .waiting history w
  uncancelled : .cancel ∉ history.inputs
  answers : history.lists = (List.range history.lists.length).map outcome

theorem AnsweredRun.last (h : AnsweredRun config outcome (history ++ [(i, outputs)]) w') :
    ∃ w, AnsweredRun config outcome history w ∧ w.step i = some (w', outputs) ∧ i ≠ .cancel ∧
      ∀ a, i.list? = some a → outcome history.lists.length = a := by
  obtain ⟨w, run, hstep⟩ := h.run.last
  have huncancelled := h.uncancelled
  rw [History.inputs_append, List.mem_append, List.mem_singleton, not_or] at huncancelled
  obtain ⟨hbefore, hi⟩ := huncancelled
  have hanswers := h.answers
  rw [History.lists_append] at hanswers
  cases hlist : i.list? with
  | none =>
    rw [hlist, Option.toList_none, List.append_nil] at hanswers
    exact ⟨w, ⟨run, hbefore, hanswers⟩, hstep, Ne.symm hi, by simp⟩
  | some a =>
    rw [hlist, Option.toList_some, List.length_append, List.length_singleton, List.range_succ,
      List.map_append] at hanswers
    obtain ⟨hearlier, hlast⟩ := List.append_inj' hanswers rfl
    refine ⟨w, ⟨run, hbefore, hearlier⟩, hstep, Ne.symm hi, ?_⟩
    rintro a ⟨⟩
    exact (List.singleton_inj.1 hlast).symm

theorem AnsweredRun.step (h : AnsweredRun config outcome history w)
    (hstep : w.step i = some (w', outputs)) (hi : i ≠ .cancel)
    (hanswer : ∀ a, i.list? = some a → a = outcome history.lists.length) :
    AnsweredRun config outcome (history ++ [(i, outputs)]) w' := by
  refine ⟨h.run.step hstep, ?_, ?_⟩
  · rw [History.inputs_append, List.mem_append, List.mem_singleton, not_or]
    exact ⟨h.uncancelled, Ne.symm hi⟩
  · rw [History.lists_append]
    cases hlist : i.list? with
    | none => simpa using h.answers
    | some a =>
      rw [Option.toList_some, List.length_append, List.length_singleton, List.range_succ,
        List.map_append, ← h.answers, hanswer a hlist]
      rfl

theorem AnsweredRun.failures (h : AnsweredRun config outcome history w)
    (trying : Trying config history w) : ∀ j < history.lists.length, ∃ e, outcome j = .error e := by
  intro j hj
  refine trying.failed (outcome j) ?_
  rw [h.answers]
  exact List.mem_map_of_mem (List.mem_range.2 hj)

theorem not_starting_of_started {s : Step α} {result : Except WatchError Unit} (hmove : Move w i s)
    (h : .started result ∈ s.2) : s.1.phase.starting = false := by
  cases result with
  | ok u =>
    have hphase : s.1.phase = .opening := (started_of_move hmove h).2
    rw [hphase]
    rfl
  | error e =>
    have hphase : s.1.phase = .finished := (started_of_move hmove h).2.1
    rw [hphase]
    rfl

theorem Run.not_started (run : Run config .waiting history w) (h : w.phase.starting = true)
    (result : Except WatchError Unit) : .started result ∉ deeds config .waiting history := by
  induction run with
  | start => simp [deeds, Engine.start]
  | step _ hstep ih =>
    have hmove := move_of_step hstep
    rw [deeds_append, List.mem_append, not_or]
    refine ⟨ih (starting_of_move hmove h), fun hmem => ?_⟩
    rw [not_starting_of_started hmove hmem] at h
    cases h

theorem started_of_decides {s : Step α} (hconfig : w.config = config)
    (h : Decides config history w i s) : ∃ result, .started result ∈ s.2 := by
  cases h with
  | listed => exact ⟨.ok (), by simp [listSucceeded, listOutputs, openWatch]⟩
  | givesUp hlimit =>
    rw [listFailed_of_givesUp (givesUp_iff.2 ⟨_, hconfig ▸ hlimit, Nat.le_refl _⟩)]
    exact ⟨_, List.mem_append_right _ (List.mem_singleton_self _)⟩

theorem AnsweredRun.trying (h : AnsweredRun config outcome history w)
    (positive : config.attempts ≠ some 0)
    (hnot : ∀ result, .started result ∉ deeds config .waiting history) :
    Trying config history w := by
  obtain ⟨run, huncancelled, -⟩ := h
  induction run with
  | start => exact trying_start positive
  | @step history w i w' outputs run hstep ih =>
    rw [History.inputs_append, List.mem_append, List.mem_singleton, not_or] at huncancelled
    simp only [deeds_append, List.mem_append, not_or, forall_and] at hnot
    have htrying := ih hnot.1 huncancelled.1
    rcases htrying.next (run.goes huncancelled.1) (Ne.symm huncancelled.2)
      (move_of_step hstep) with hnext | ⟨-, hdecides⟩
    · exact hnext
    · obtain ⟨result, hresult⟩ := started_of_decides htrying.config_eq hdecides
      exact absurd hresult (hnot.2 result)

theorem AnsweredRun.asks (h : AnsweredRun config outcome history w)
    (trying : Trying config history w) :
    ∃ later v, AnsweredRun config outcome (history ++ later) v ∧
      Trying config (history ++ later) v ∧ (history ++ later).lists = history.lists ∧
      v.phase = .listing (.start (history.lists.length + 1)) := by
  rcases trying.waits with ⟨hp, -⟩ | ⟨hp, hasked⟩
  · exact ⟨[], w, by simpa using h, by simpa using trying, by simp, hp⟩
  · have hstep : w.step .elapsed = some (w.askList (.start (history.lists.length + 1))) := by
      simp only [Engine.step, hp]
      rfl
    refine ⟨[(.elapsed, [.list])], _, h.step hstep (by simp) (by simp [Input.list?]), ?_,
      (History.lists_append ..).trans (List.append_nil _), rfl⟩
    exact trying.quiet_step rfl rfl rfl rfl (.inl ⟨rfl, congrArg (· + 1) hasked⟩)

theorem AnsweredRun.attempt (h : AnsweredRun config outcome history w)
    (trying : Trying config history w) :
    ∃ later v, AnsweredRun config outcome (history ++ later) v ∧
      (history ++ later).lists.length = history.lists.length + 1 := by
  obtain ⟨later, v, hasks, -, hlists, hp⟩ := h.asks trying
  obtain ⟨v', outputs, hstep⟩ : ∃ v' outputs,
      v.step (.listed (outcome history.lists.length)) = some (v', outputs) := by
    simp only [Engine.step, hp]
    cases outcome history.lists.length with
    | ok l => exact ⟨_, _, rfl⟩
    | error e => exact ⟨_, _, rfl⟩
  refine ⟨later ++ [(.listed (outcome history.lists.length), outputs)], v', ?_, ?_⟩
  · rw [← List.append_assoc]
    refine hasks.step hstep (by simp) ?_
    rw [hlists]
    rintro a ⟨⟩
    rfl
  · rw [← List.append_assoc, History.lists_append, hlists, List.length_append]
    rfl

/-! ## What a start reports -/

variable {s : Step α} {result : Except WatchError Unit}

structure Over (config : WatchConfig) (outcome : Outcomes α) (h : History α) (w : Engine α)
    (result : Except WatchError Unit) (k : Nat) (r : Except WatchError (Listing α)) : Prop where
  ends : Ends config outcome k r
  result_eq : result = r.map fun _ => ()
  asked : h.asked config = k
  holds : ∀ l, r = .ok l → Holds l w ∧ h.calls = l.items.map .add
  silent : ∀ e, r = .error e → h.calls = []

theorem Trying.over (h : Trying config history w)
    (hp : w.phase = .listing (.start (history.lists.length + 1)))
    (hfails : ∀ j < history.lists.length, ∃ e, outcome j = .error e)
    (hanswer : ∀ a, i.list? = some a → outcome history.lists.length = a)
    (hdecides : Decides config history w i s) (hmem : .started result ∈ s.2) :
    ∃ k r, Over config outcome (history ++ [(i, s.2)]) s.1 result k r := by
  have hasked := (h.of_listing hp).2
  cases hdecides with
  | @listed l =>
    obtain ⟨hholds, hcalls⟩ :=
      holds_of_listSucceeded h l (p := .start (history.lists.length + 1)) rfl
    refine ⟨_, _, .lists hfails (hanswer _ rfl) h.below, (started_of_listSucceeded hmem).2, ?_, ?_,
      by simp⟩
    · rw [History.asked_append, hasked, actsOf_listSucceeded]
      rfl
    · rintro l' ⟨⟩
      refine ⟨hholds, ?_⟩
      rw [History.calls_append, h.silent, hcalls]
      rfl
  | @givesUp e hlimit =>
    obtain ⟨⟨attempt, hattempt, hresult⟩, -⟩ := started_of_listFailed hmem
    cases hattempt
    refine ⟨_, _, .fails hlimit ?_, h.config_eq ▸ hresult, ?_, by simp, fun _ _ => ?_⟩
    · intro j hj
      rcases Nat.lt_succ_iff_lt_or_eq.1 hj with hlt | rfl
      · exact hfails j hlt
      · exact ⟨e, hanswer _ rfl⟩
    · rw [History.asked_append, hasked, listFailed_of_givesUp
        (givesUp_iff.2 ⟨_, h.config_eq ▸ hlimit, Nat.le_refl _⟩), failStart, actsOf_append,
        actsOf_finish]
      rfl
    · rw [History.calls_append, h.silent, (silent_listFailed w _).2]
      rfl

theorem AnsweredRun.over (h : AnsweredRun config outcome (history ++ [(i, outputs)]) w)
    (positive : config.attempts ≠ some 0) (hmem : .started result ∈ outputs) :
    ∃ k r, Over config outcome (history ++ [(i, outputs)]) w result k r := by
  obtain ⟨v, hbefore, hstep, hi, hanswer⟩ := h.last
  have hmove := move_of_step hstep
  have hnot := hbefore.run.not_started (started_of_move hmove hmem).1
  have htrying := hbefore.trying positive hnot
  rcases htrying.next (hbefore.run.goes hbefore.uncancelled) hi hmove with hnext | ⟨hp, hdecides⟩
  · have hstarting := hnext.starting
    rw [not_starting_of_started hmove hmem] at hstarting
    cases hstarting
  · exact htrying.over hp (hbefore.failures htrying) hanswer hdecides hmem

theorem AnsweredRun.reports (h : AnsweredRun config outcome history w)
    (positive : config.attempts ≠ some 0)
    (hmem : .started result ∈ deeds config .waiting history) :
    ∃ k r, Ends config outcome k r ∧ result = r.map (fun _ => ()) ∧
      ∀ e, r = .error e → history.calls = [] := by
  induction history using List.reverseRecOn generalizing w with
  | nil => simp [deeds, Engine.start] at hmem
  | append_singleton history e ih =>
    obtain ⟨i, outputs⟩ := e
    rw [deeds_append, List.mem_append] at hmem
    rcases hmem with hmem | hmem
    · obtain ⟨v, hbefore, hstep, -, -⟩ := h.last
      obtain ⟨k, r, hends, rfl, hsilent⟩ := ih hbefore hmem
      refine ⟨k, r, hends, rfl, ?_⟩
      rintro e rfl
      obtain ⟨-, hstopped⟩ := stopped_of_failed_start hbefore.run hmem
      have hrefuses := (frozen_of_stopped (move_of_step hstep) hbefore.run.flagged hstopped).2
      have hcalls : callsOf outputs = [] := by
        refine List.filterMap_eq_nil_iff.2 fun o ho => ?_
        obtain ⟨r, rfl⟩ := hrefuses o ho
        rfl
      rw [History.calls_append, hsilent e rfl, hcalls]
      rfl
    · obtain ⟨k, r, hover⟩ := h.over positive hmem
      exact ⟨k, r, hover.ends, hover.result_eq, hover.silent⟩

theorem AnsweredRun.comes_to_end (h : AnsweredRun config outcome history w)
    (positive : config.attempts ≠ some 0)
    (hnot : ∀ result, .started result ∉ deeds config .waiting history)
    (hends : Ends config outcome k r) :
    ∃ later v, AnsweredRun config outcome (history ++ later) v ∧
      .started (r.map fun _ => ()) ∈ deeds config .waiting (history ++ later) := by
  -- Each answer leaves fewer requests to come, and the last one has to report.
  induction hm : k - history.lists.length using Nat.strongRecOn generalizing history w with
  | ind m ih =>
    have htrying := h.trying positive hnot
    have hlt := hends.lt (h.failures htrying) htrying.below
    obtain ⟨later, v, hnext, hlength⟩ := h.attempt htrying
    by_cases hstarted : ∃ result, .started result ∈ deeds config .waiting (history ++ later)
    · obtain ⟨result, hresult⟩ := hstarted
      obtain ⟨k', r', hends', rfl, -⟩ := hnext.reports positive hresult
      obtain ⟨-, rfl⟩ := hends.unique hends'
      exact ⟨later, v, hnext, hresult⟩
    · obtain ⟨rest, u, hlast, hresult⟩ :=
        ih _ (by omega) hnext (not_exists.1 hstarted) rfl
      rw [List.append_assoc] at hlast hresult
      exact ⟨later ++ rest, u, hlast, hresult⟩

/-- A start that waits for its list and is not cancelled asks until a list comes or its limit is
reached. There is such an end if there is a limit or a list, it can be reached from wherever the
start is, and until then nothing is told. When the start is over it has made as many requests as
that takes and reports the list or the failure. With the list the copy is that list, each of its
objects has been added in order, and nothing else has been told; with the failure nothing is told,
then or later. Without a limit there is no failure. -/
theorem start_patience (positive : config.attempts ≠ some 0) (outcome : Outcomes α) :
    (config.attempts ≠ none ∨ (∃ j l, outcome j = .ok l) → ∃ k r, Ends config outcome k r) ∧
    (∀ history w, AnsweredRun config outcome history w →
      (∀ result, .started result ∉ deeds config .waiting history) →
      history.calls = [] ∧ ∀ k r, Ends config outcome k r → history.lists.length < k ∧
        ∃ later v, AnsweredRun config outcome (history ++ later) v ∧
          .started (r.map fun _ => ()) ∈ deeds config .waiting (history ++ later)) ∧
    (∀ (history : History α) i outputs w result,
      AnsweredRun config outcome (history ++ [(i, outputs)]) w → .started result ∈ outputs →
      (∃ k r, Ends config outcome k r) ∧ ∀ k r, Ends config outcome k r →
        result = r.map (fun _ => ()) ∧
        History.asked config (history ++ [(i, outputs)]) = k ∧
        ∀ l, r = .ok l →
          Holds l w ∧ History.calls (history ++ [(i, outputs)]) = l.items.map .add) ∧
    ∀ history w e, AnsweredRun config outcome history w →
      .started (.error e) ∈ deeds config .waiting history →
      history.calls = [] ∧ config.attempts ≠ none := by
  refine ⟨exists_ends, ?_, ?_, ?_⟩
  · intro history w h hnot
    have htrying := h.trying positive hnot
    refine ⟨htrying.silent, fun k r hends => ⟨?_, h.comes_to_end positive hnot hends⟩⟩
    exact hends.lt (h.failures htrying) htrying.below
  · intro history i outputs w result h hmem
    obtain ⟨k, r, hover⟩ := h.over positive hmem
    refine ⟨⟨k, r, hover.ends⟩, fun k' r' hends' => ?_⟩
    obtain ⟨rfl, rfl⟩ := hover.ends.unique hends'
    exact ⟨hover.result_eq, hover.asked, hover.holds⟩
  · intro history w e h hmem
    obtain ⟨k, r, hends, hresult, hsilent⟩ := h.reports positive hmem
    cases hends with
    | lists _ _ _ => cases hresult
    | fails hlimit _ => exact ⟨hsilent _ rfl, by simp [hlimit]⟩

def triesUpTo (attempts : Nat) : WatchConfig :=
  { WatchConfig.standard "pods" with attempts := some attempts }

def twiceRefused : Outcomes Pod
  | 0 | 1 => .error (.listFailed "refused")
  | _ => .ok ⟨some "4", [.sample "a" "4" "Running", .sample "b" "4" "Running"]⟩

theorem start_patience_sample :
    (∃ history w, AnsweredRun (triesUpTo 3) twiceRefused history w ∧
      .started (.ok ()) ∈ deeds (triesUpTo 3) .waiting history ∧
      history.asked (triesUpTo 3) = 3 ∧ w.synced = true ∧ w.collection.version = "4" ∧
      history.calls = [.add (.sample "a" "4" "Running"), .add (.sample "b" "4" "Running")]) ∧
    ∃ history w, AnsweredRun (triesUpTo 2) twiceRefused history w ∧
      .started (.error (.firstListFailed "pods" 2)) ∈ deeds (triesUpTo 2) .waiting history ∧
      history.calls = [] := by
  have hrefused : ∀ j < 2, ∃ e, twiceRefused j = .error e := by
    intro j hj
    obtain rfl | rfl : j = 0 ∨ j = 1 := by omega
    · exact ⟨_, rfl⟩
    · exact ⟨_, rfl⟩
  constructor
  · obtain ⟨history, v, hf⟩ : ∃ history v, (Engine.start (triesUpTo 3) .waiting).1.follow
        [.listed (twiceRefused 0), .elapsed, .listed (twiceRefused 1), .elapsed] =
          some (history, v) := ⟨_, _, rfl⟩
    obtain ⟨w, outputs, hstep, hmem⟩ : ∃ w outputs,
        v.step (.listed (twiceRefused 2)) = some (w, outputs) ∧ .started (.ok ()) ∈ outputs := by
      cases hf
      exact ⟨_, _, rfl, by simp [listOutputs, Purpose.again]⟩
    have hlists : history.lists = [twiceRefused 0, twiceRefused 1] := by
      rw [History.lists, inputs_of_follow hf]
      rfl
    have h : AnsweredRun (triesUpTo 3) twiceRefused history v :=
      ⟨Run.start.follow hf, by simp [inputs_of_follow hf], by rw [hlists]; rfl⟩
    have hlast := h.step hstep (by simp) (by rw [hlists]; rintro a ⟨⟩; rfl)
    have hends : Ends (triesUpTo 3) twiceRefused 3 _ :=
      .lists hrefused rfl (by rintro n ⟨⟩; decide)
    have positive : (triesUpTo 3).attempts ≠ some 0 := by decide
    obtain ⟨-, -, hover, -⟩ := start_patience positive twiceRefused
    obtain ⟨-, hasked, hholds⟩ := (hover history _ outputs w _ hlast hmem).2 3 _ hends
    obtain ⟨hheld, hcalls⟩ := hholds _ rfl
    refine ⟨_, w, hlast, ?_, hasked, hheld.synced, hheld.version, hcalls⟩
    rw [deeds_append]
    exact List.mem_append_right _ hmem
  · have positive : (triesUpTo 2).attempts ≠ some 0 := by decide
    have hends : Ends (triesUpTo 2) twiceRefused 2 _ := .fails rfl hrefused
    have hstart : AnsweredRun (triesUpTo 2) twiceRefused [] (Engine.start _ .waiting).1 :=
      ⟨.start, by simp [History.inputs], rfl⟩
    have hnot (result : Except WatchError Unit) :
        .started result ∉ deeds (triesUpTo 2) .waiting ([] : History Pod) := by
      simp [deeds, Engine.start]
    obtain ⟨-, hcomes, -, hfails⟩ := start_patience positive twiceRefused
    obtain ⟨-, later, v, h, hmem⟩ := (hcomes [] _ hstart hnot).2 2 _ hends
    exact ⟨later, v, h, hmem, (hfails later v _ h hmem).1⟩

end Engine

end BufferLedger
