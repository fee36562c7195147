import BufferLedger.Proofs.Replacement
import BufferLedger.Proofs.Stretch

/-!
# Requests for a new list

Requests wait in the order in which they are made: one for which a list is under way, and then
those that have not been noticed. A step takes answers from the front and puts a new request at the
end (`Engine.Settles`), so requests are served in their order. One that is served was there before
its list was asked for, with its answer the copy is that list, and no event is applied while one
waits (`Engine.requests_answered`).
-/

namespace BufferLedger

variable {α : Type}

def Input.request? : Input α → Option Nat
  | .request r => some r
  | _ => none

def Output.answer? : Output α → Option (Nat × Bool)
  | .answered r served => some (r, served)
  | _ => none

def answersOf (outputs : List (Output α)) : List (Nat × Bool) :=
  outputs.filterMap Output.answer?

theorem answersOf_append (a b : List (Output α)) :
    answersOf (a ++ b) = answersOf a ++ answersOf b :=
  List.filterMap_append

theorem answersOf_calls (calls : List (Call α)) : answersOf (calls.map Output.call) = [] := by
  simp [answersOf, Output.answer?]

theorem answersOf_answers (requests : List Nat) (served : Bool) :
    answersOf (requests.map fun r => (.answered r served : Output α)) =
      requests.map fun r => (r, served) := by
  simp [answersOf, List.filterMap_map, Function.comp_def, Output.answer?]

namespace Engine

def History.requests (h : History α) : List Nat :=
  h.inputs.filterMap Input.request?

def History.answers (h : History α) : List (Nat × Bool) :=
  h.flatMap fun e => answersOf e.2

theorem History.requests_append (a b : History α) :
    (a ++ b).requests = a.requests ++ b.requests := by
  simp [requests, inputs]

theorem History.requests_singleton (i : Input α) (outputs : List (Output α)) :
    requests [(i, outputs)] = i.request?.toList := by
  cases h : i.request? <;> simp [requests, inputs, h]

theorem History.answers_append (h : History α) (i : Input α) (outputs : List (Output α)) :
    answers (h ++ [(i, outputs)]) = answers h ++ answersOf outputs := by
  simp [answers]

def waiting (w : Engine α) : List Nat :=
  w.phase.request?.toList ++ w.requests

/-! ## One step -/

variable [ClusterObject α] {w : Engine α} {i : Input α} {s : Step α}

/-- What a step does about the requests that wait. -/
inductive Settles (w : Engine α) (i : Input α) (s : Step α) : Prop
  | unanswered : answersOf s.2 = [] → s.1.waiting = w.waiting ++ i.request?.toList →
      (s.1.phase = .finished → s.1.waiting = []) → Settles w i s
  | served {r l} : i = .listed (.ok l) → w.phase = .listing (.relist (some r)) →
      answersOf s.2 = [(r, true)] → w.waiting = r :: s.1.waiting → s.1.phase ≠ .finished →
      Settles w i s
  | refused : answersOf s.2 = (w.waiting ++ i.request?.toList).map (·, false) →
      s.1.waiting = [] → s.1.phase = .finished → Settles w i s

omit [ClusterObject α] in
theorem answersOf_finish (w : Engine α) : answersOf w.finish.2 = w.waiting.map (·, false) :=
  answersOf_answers _ _

omit [ClusterObject α] in
theorem answersOf_failStart (w : Engine α) (e : WatchError) :
    answersOf (w.failStart e).2 = w.waiting.map (·, false) := by
  simp only [failStart, answersOf_append, answersOf_finish]
  exact List.append_nil _

omit [ClusterObject α] in
theorem answersOf_finishCancelled (w : Engine α) :
    answersOf w.finishCancelled.2 = w.waiting.map (·, false) := by
  unfold finishCancelled
  split
  · exact answersOf_failStart w _
  · exact answersOf_failStart w _
  · exact answersOf_finish w

theorem answersOf_listSucceeded (w : Engine α) (p : Purpose) (l : Listing α) :
    answersOf (w.listSucceeded p l).2 = p.request?.toList.map (·, true) := by
  have hlist : answersOf (listOutputs p : List (Output α)) = p.request?.toList.map (·, true) := by
    cases p with
    | start attempt => rfl
    | sync => rfl
    | relist r => exact answersOf_answers _ _
  simp only [listSucceeded, openWatch, answersOf_append, answersOf_calls, hlist, List.nil_append]
  exact List.append_nil _

omit [ClusterObject α] in
theorem Settles.of_same (hanswers : answersOf s.2 = []) (hinput : i.request? = none)
    (hphase : s.1.phase.request? = w.phase.request?) (hrequests : s.1.requests = w.requests)
    (hgoes : s.1.phase ≠ .finished) : Settles w i s := by
  refine .unanswered hanswers ?_ (absurd · hgoes)
  rw [waiting, waiting, hphase, hrequests, hinput]
  exact (List.append_nil _).symm

theorem settles_listSucceeded {p : Purpose} {l : Listing α} (hphase : w.phase = .listing p) :
    Settles w (.listed (.ok l)) (w.listSucceeded p l) := by
  have hanswers := answersOf_listSucceeded w p l
  have hrequest : w.phase.request? = p.request? := by rw [hphase]; rfl
  cases hp : p.request? with
  | none =>
    rw [hp] at hanswers hrequest
    exact .of_same hanswers rfl hrequest.symm rfl nofun
  | some r =>
    obtain rfl : p = .relist (some r) := by
      cases p with
      | relist r' => exact congrArg _ hp
      | start attempt => cases hp
      | sync => cases hp
    refine .served rfl hphase hanswers ?_ nofun
    rw [waiting, hrequest]
    rfl

omit [ClusterObject α] in
theorem settles_listFailed {p : Purpose} {e : WatchError} (hphase : w.phase = .listing p) :
    Settles w (.listed (.error e)) (w.listFailed p) := by
  have hwait : Settles w (.listed (.error e)) (waitForList p { w with failing := true }) :=
    .of_same rfl rfl (by rw [hphase]; rfl) rfl nofun
  cases p with
  | start attempt =>
    simp only [listFailed]
    split
    · refine .refused ?_ rfl rfl
      rw [answersOf_failStart]
      exact congrArg _ (List.append_nil _).symm
    · exact hwait
  | sync => exact hwait
  | relist r => exact hwait

omit [ClusterObject α] in
theorem settles_watchFailed {e : WatchError} (hinput : i.request? = none)
    (hphase : w.phase.request? = none) : Settles w i (w.watchFailed e) := by
  unfold watchFailed
  split
  · exact .of_same rfl hinput hphase.symm rfl nofun
  · exact .of_same rfl hinput hphase.symm rfl nofun

theorem settles_of_move (hmove : Move w i s) (drained : w.phase = .finished → w.waiting = []) :
    Settles w i s := by
  cases hmove with
  | cancel => exact .unanswered rfl (List.append_nil _).symm drained
  | noticeCancel hc hp =>
    have hlast := fst_finishCancelled w
    refine .refused ?_ (by rw [hlast]; rfl) (by rw [hlast])
    rw [answersOf_finishCancelled]
    exact congrArg _ (List.append_nil _).symm
  | lateRequest hp => exact .refused (by rw [drained hp]; rfl) (drained hp) hp
  | request hp => exact .unanswered rfl (List.append_assoc ..).symm (absurd · hp)
  | noticeRequest hp hc hr =>
    refine .unanswered rfl ?_ nofun
    simp [waiting, askList, hp, hr, Phase.request?, Purpose.request?, Input.request?]
  | listed hp => exact settles_listSucceeded hp
  | listFailed hp => exact settles_listFailed hp
  | opened hp => exact .of_same rfl rfl (by rw [hp]; rfl) rfl nofun
  | openFailed hp => exact settles_watchFailed rfl (by rw [hp]; rfl)
  | received hp hc hr =>
    exact .of_same (answersOf_calls _) rfl rfl rfl (by simp [hp])
  | streamFailed hp hc hr => exact settles_watchFailed rfl (by rw [hp]; rfl)
  | closed hp hc hr => exact .of_same rfl rfl (by rw [hp]; rfl) rfl nofun
  | @listAgain p hp =>
    have hagain : p.again.request? = p.request? := by cases p <;> rfl
    exact .of_same rfl rfl (by rw [hp]; exact hagain) rfl nofun
  | watchAgain hp => exact .of_same rfl rfl (by rw [hp]; rfl) rfl nofun

theorem finished_of_move (hmove : Move w i s) (hw : w.Flagged) (h : w.phase = .finished) :
    s.1.phase = .finished :=
  (flagged_of_move hmove hw).stopped.1 (frozen_of_stopped hmove hw (hw.stopped.2 h)).1.stopped

/-! ## Accounts of a run -/

/-- The requests made are those served, then those refused, and then those that wait. -/
structure Accounts (h : History α) (w : Engine α) (served refused : List Nat) : Prop where
  requests : h.requests = served ++ refused ++ w.waiting
  answers : h.answers = served.map (·, true) ++ refused.map (·, false)
  refused_of_going : w.phase ≠ .finished → refused = []
  drained : w.phase = .finished → w.waiting = []

section Runs

variable {config : WatchConfig} {mode : StartMode} {history : History α} {served refused : List Nat}
  {w' : Engine α} {outputs : List (Output α)}

omit [ClusterObject α] in
theorem Accounts.settle (h : Accounts history w served refused)
    (hsettles : Settles w i (w', outputs)) (hstays : w.phase = .finished → w'.phase = .finished) :
    ∃ served refused, Accounts (history ++ [(i, outputs)]) w' served refused := by
  have hrequests : (history ++ [(i, outputs)]).requests =
      served ++ refused ++ (w.waiting ++ i.request?.toList) := by
    rw [History.requests_append, History.requests_singleton, h.requests, List.append_assoc]
  have hanswers := History.answers_append history i outputs
  rw [h.answers] at hanswers
  cases hsettles with
  | unanswered hnone hwaiting hdrained =>
    refine ⟨served, refused, ?_, ?_, ?_, hdrained⟩
    · rw [hrequests, hwaiting]
    · rw [hanswers, hnone, List.append_nil]
    · exact fun hgoes => h.refused_of_going fun hp => hgoes (hstays hp)
  | @served r l hi hphase hone hwaiting hgoes =>
    obtain rfl : refused = [] := h.refused_of_going (by simp [hphase])
    refine ⟨served ++ [r], [], ?_, ?_, fun _ => rfl, (absurd · hgoes)⟩
    · rw [hrequests, hwaiting, hi]
      simp [Input.request?]
    · rw [hanswers, hone]
      simp
  | refused hall hwaiting hfinished =>
    refine ⟨served, refused ++ (w.waiting ++ i.request?.toList), ?_, ?_, (absurd hfinished ·),
      fun _ => hwaiting⟩
    · rw [hrequests, hwaiting]
      simp
    · rw [hanswers, hall]
      simp

theorem Run.accounts (run : Run config mode history w) :
    ∃ served refused, Accounts history w served refused := by
  induction run with
  | start =>
    refine ⟨[], [], ?_, rfl, fun _ => rfl, fun _ => ?_⟩
    · cases mode <;> rfl
    · cases mode <;> rfl
  | @step history w i w' outputs run hstep ih =>
    obtain ⟨served, refused, h⟩ := ih
    have hmove := move_of_step hstep
    exact h.settle (settles_of_move hmove h.drained) (finished_of_move hmove run.flagged)

theorem Run.mem_requests (run : Run config mode history w) {r : Nat} (h : r ∈ w.waiting) :
    r ∈ history.requests := by
  obtain ⟨served, refused, accounts⟩ := run.accounts
  rw [accounts.requests]
  exact List.mem_append_right _ h

end Runs

/-! ## The list that serves a request -/

def History.AwaitsList (h : History α) : Prop :=
  ∃ before i outputs after, h = before ++ (i, outputs) :: after ∧ Output.list ∈ outputs ∧
    ∀ e ∈ after, ∀ answer, e.1 ≠ .listed answer

def History.Underway (r : Nat) (h : History α) : Prop :=
  ∃ before outputs after, h = before ++ (.request r, outputs) :: after ∧ AwaitsList after

/-- After what was before, a list was asked for and came, the watch has copied it, and with that the
request is served. -/
def History.Serves (config : WatchConfig) (mode : StartMode) (r : Nat) (earlier h : History α) :
    Prop :=
  ∃ before l outputs after w, h = before ++ (.listed (.ok l), outputs) :: after ∧
    AwaitsList before ∧ answersOf outputs = [(r, true)] ∧
    Run config mode (earlier ++ before ++ [(.listed (.ok l), outputs)]) w ∧
    Collection.Copies l w.collection

section Lists

variable {config : WatchConfig} {mode : StartMode} {history before after before' after' : History α}
  {w' : Engine α} {outputs outputs' : List (Output α)} {r : Nat}

omit [ClusterObject α] in
theorem History.AwaitsList.snoc (h : AwaitsList history) (hi : ∀ answer, i ≠ .listed answer) :
    AwaitsList (history ++ [(i, outputs)]) := by
  obtain ⟨before, j, asked, after, rfl, hlist, hafter⟩ := h
  refine ⟨before, j, asked, after ++ [(i, outputs)], by simp, hlist, ?_⟩
  rw [List.forall_mem_append]
  exact ⟨hafter, by simpa using hi⟩

omit [ClusterObject α] in
theorem History.awaitsList_of_asked (hlist : .list ∈ outputs) :
    AwaitsList (history ++ [(i, outputs)]) :=
  ⟨history, i, outputs, [], rfl, hlist, by simp⟩

omit [ClusterObject α] in
theorem History.exists_of_mem_requests (h : r ∈ history.requests) :
    ∃ before outputs after, history = before ++ (.request r, outputs) :: after := by
  obtain ⟨i, hi, hr⟩ := List.mem_filterMap.1 h
  obtain ⟨⟨j, outputs⟩, he, rfl⟩ := List.mem_map.1 hi
  obtain ⟨before, after, rfl⟩ := List.append_of_mem he
  obtain rfl : j = .request r := by
    cases j with
    | request r' => exact congrArg _ (Option.some.inj hr)
    | _ => cases hr
  exact ⟨before, outputs, after, rfl⟩

theorem relisting_of_move (hmove : Move w i s) (hphase : s.1.phase = .listing (.relist (some r))) :
    (w.phase = .listing (.relist (some r)) ∧ ∀ answer, i ≠ .listed answer) ∨
      r ∈ w.waiting ∧ .list ∈ s.2 := by
  cases hmove with
  | cancel => exact .inl ⟨hphase, by simp⟩
  | request _ => exact .inl ⟨hphase, by simp⟩
  | lateRequest _ => exact .inl ⟨hphase, by simp⟩
  | noticeRequest hp hc hr =>
    cases hphase
    exact .inr ⟨by simp [waiting, hr], by simp [askList]⟩
  | @listAgain p hp =>
    obtain rfl : p = .relist (some r) := by
      cases p with
      | relist r' =>
        cases hphase
        rfl
      | start attempt => cases hphase
      | sync => cases hphase
    exact .inr ⟨by simp [waiting, hp, Phase.request?, Purpose.request?], by simp [askList]⟩
  | received hp hc hr => cases hp.symm.trans hphase
  | @listFailed p e hp =>
    cases p with
    | start attempt =>
      simp only [listFailed] at hphase
      split at hphase <;> cases hphase
    | sync => cases hphase
    | relist r' => cases hphase
  | openFailed hp | streamFailed hp hc hr =>
    simp only [watchFailed] at hphase
    split at hphase <;> cases hphase
  | noticeCancel _ _ =>
    rw [fst_finishCancelled] at hphase
    cases hphase
  | listed _ | opened _ | closed _ _ _ | watchAgain _ => cases hphase

theorem Run.underway (run : Run config mode history w)
    (hphase : w.phase = .listing (.relist (some r))) : history.Underway r := by
  induction run with
  | start => cases mode <;> cases hphase
  | @step history w i w' outputs run hstep ih =>
    rcases relisting_of_move (move_of_step hstep) hphase with ⟨hbefore, hi⟩ | ⟨hwaits, hlist⟩
    · obtain ⟨before, o, after, rfl, hawaits⟩ := ih hbefore
      exact ⟨before, o, after ++ [(i, outputs)], by simp, hawaits.snoc hi⟩
    · obtain ⟨before, o, after, rfl⟩ := History.exists_of_mem_requests (run.mem_requests hwaits)
      exact ⟨before, o, after ++ [(i, outputs)], by simp, History.awaitsList_of_asked hlist⟩

theorem served_of_step (hstep : w.step i = some (w', outputs))
    (drained : w.phase = .finished → w.waiting = []) (h : (r, true) ∈ answersOf outputs) :
    answersOf outputs = [(r, true)] ∧ w.phase = .listing (.relist (some r)) ∧
      ∃ l, i = .listed (.ok l) := by
  cases settles_of_move (move_of_step hstep) drained with
  | unanswered hnone _ _ =>
    rw [hnone] at h
    cases h
  | served hi hphase hone _ _ =>
    rw [hone] at h
    cases List.mem_singleton.1 h
    exact ⟨hone, hphase, _, hi⟩
  | refused hall _ _ =>
    rw [hall] at h
    simp at h

omit [ClusterObject α] in
theorem History.mem_requests_of_made :
    r ∈ (before ++ (.request r, outputs) :: after).requests := by
  simp [requests, inputs, Input.request?]

omit [ClusterObject α] in
theorem History.split_eq_of_distinct
    (h : before ++ (.request r, outputs) :: after = before' ++ (.request r, outputs') :: after')
    (distinct : (before ++ (.request r, outputs) :: after).requests.Nodup) :
    before = before' ∧ outputs = outputs' ∧ after = after' := by
  have hcons (e : Input α × List (Output α)) (rest : History α) :
      (requests (e :: rest)) = e.1.request?.toList ++ requests rest :=
    (requests_append [e] rest).trans (congrArg (· ++ _) (requests_singleton e.1 e.2))
  have hfirst {o : List (Output α)} {rest : History α} (hr : r ∈ requests rest)
      (hnodup : (requests ((.request r, o) :: rest)).Nodup) : False := by
    rw [hcons] at hnodup
    exact (List.nodup_cons.1 hnodup).1 hr
  induction before generalizing before' with
  | nil =>
    cases before' with
    | nil =>
      cases h
      exact ⟨rfl, rfl, rfl⟩
    | cons e before' =>
      obtain ⟨rfl, rfl⟩ := List.cons.inj h
      exact (hfirst mem_requests_of_made distinct).elim
  | cons e before ih =>
    cases before' with
    | nil =>
      obtain ⟨rfl, -⟩ := List.cons.inj h
      exact (hfirst mem_requests_of_made distinct).elim
    | cons e' before' =>
      obtain ⟨rfl, hrest⟩ := List.cons.inj h
      rw [List.cons_append, hcons] at distinct
      obtain ⟨rfl, hsame⟩ := ih hrest (List.Nodup.of_append_right distinct)
      exact ⟨rfl, hsame⟩

theorem Run.serves (run : Run config mode history w) (distinct : history.requests.Nodup)
    (hmade : history = before ++ (.request r, outputs) :: after)
    (hserved : (r, true) ∈ history.answers) :
    History.Serves config mode r (before ++ [(.request r, outputs)]) after := by
  obtain ⟨⟨i, answered⟩, he, hr⟩ := List.mem_flatMap.1 hserved
  obtain ⟨prior, rest, rfl⟩ := List.append_of_mem he
  obtain ⟨v, v', hprior, hstep, -⟩ := run.split_at
  obtain ⟨_, _, accounts⟩ := hprior.accounts
  obtain ⟨hone, hphase, l, rfl⟩ := served_of_step hstep accounts.drained hr
  obtain ⟨a, o, b, rfl, hawaits⟩ := hprior.underway hphase
  have hsame : before ++ (.request r, outputs) :: after =
      a ++ (.request r, o) :: (b ++ (.listed (.ok l), answered) :: rest) := by
    rw [← hmade]
    simp
  rw [hmade] at distinct
  obtain ⟨rfl, rfl, rfl⟩ := History.split_eq_of_distinct hsame distinct
  have hcopied : Collection.Copies l v'.collection := by
    rw [(step_change hstep).1]
    exact Collection.copies_replace l v.collection
  exact ⟨b, l, answered, rest, v', rfl, hawaits, hone, by simpa using hprior.step hstep, hcopied⟩

theorem served_at_event {e : WatchEvent α} (run : Run config mode history w)
    (hstep : w.step (.received (.ok e)) = some (w', outputs)) (h : r ∈ history.requests) :
    (r, true) ∈ history.answers := by
  obtain ⟨served, refused, accounts⟩ := run.accounts
  cases move_of_step hstep with
  | received hphase hcancelled hnone =>
    have hwaiting : w.waiting = [] := by
      rw [waiting, hphase, hnone]
      rfl
    have hrefused := accounts.refused_of_going (by simp [hphase])
    rw [accounts.requests, hwaiting, hrefused] at h
    rw [accounts.answers]
    exact List.mem_append_left _ (List.mem_map_of_mem (by simpa using h))

end Lists

/-- At any time of a run, the requests made are those served, then those refused, then those that
wait, and some are refused only once the watch has stopped, when none waits. Each is served by a
list of its own that was asked for after the request and of which the watch then has the copy, and
such a list comes before any event that is applied after the request. -/
theorem requests_answered {config : WatchConfig} {mode : StartMode} {history : History α}
    (run : Run config mode history w) (distinct : history.requests.Nodup) :
    (∃ served refused, history.requests = served ++ refused ++ w.waiting ∧
      history.answers = served.map (·, true) ++ refused.map (·, false) ∧
      (refused ≠ [] → w.stopped = true) ∧ (w.stopped = true → w.waiting = [])) ∧
    (∀ i w' outputs r, w.step i = some (w', outputs) → (r, true) ∈ answersOf outputs →
      answersOf outputs = [(r, true)] ∧
      ∃ l, i = .listed (.ok l) ∧ w'.collection = (w.collection.replace l).1 ∧
        Collection.Copies l w'.collection) ∧
    ∀ (before : History α) r outputs (after : History α),
      history = before ++ (.request r, outputs) :: after →
      ((r, true) ∈ history.answers →
        History.Serves config mode r (before ++ [(.request r, outputs)]) after) ∧
      ((r, false) ∈ history.answers → w.stopped = true ∧ (r, true) ∉ history.answers) ∧
      ∀ (between : History α) e told rest,
        after = between ++ (.received (.ok e), told) :: rest →
          History.Serves config mode r (before ++ [(.request r, outputs)]) between := by
  obtain ⟨served, refused, accounts⟩ := run.accounts
  have hstopped : refused ≠ [] → w.stopped = true := by
    intro hrefused
    by_contra hgoes
    exact hrefused (accounts.refused_of_going fun hp => hgoes (run.flagged.stopped.2 hp))
  have hdrained (h : w.stopped = true) : w.waiting = [] :=
    accounts.drained (run.flagged.stopped.1 h)
  refine ⟨⟨served, refused, accounts.requests, accounts.answers, hstopped, hdrained⟩, ?_, ?_⟩
  · intro i w' outputs r hstep hr
    obtain ⟨hone, -, l, rfl⟩ := served_of_step hstep accounts.drained hr
    have hcollection : w'.collection = (w.collection.replace l).1 := (step_change hstep).1
    exact ⟨hone, l, rfl, hcollection, hcollection ▸ Collection.copies_replace l w.collection⟩
  · intro before r outputs after hmade
    refine ⟨run.serves distinct hmade, ?_, ?_⟩
    · intro hr
      have hrefused : r ∈ refused := by simpa [accounts.answers] using hr
      refine ⟨hstopped (List.ne_nil_of_mem hrefused), fun hserved => ?_⟩
      have hr' : r ∈ served := by simpa [accounts.answers] using hserved
      rw [accounts.requests] at distinct
      exact List.disjoint_of_nodup_append (List.Nodup.of_append_left distinct) hr' hrefused
    · rintro between e told rest rfl
      subst hmade
      -- The run up to the event has served the request, and what served it lies in between.
      rw [← List.cons_append, ← List.append_assoc] at run distinct
      obtain ⟨v, v', hprior, hstep, -⟩ := run.split_at
      rw [History.requests_append] at distinct
      exact hprior.serves (List.Nodup.of_append_left distinct) rfl
        (served_at_event hprior hstep History.mem_requests_of_made)

def requestInputs : List (Input Pod) :=
  [.podList "1" ["a"], .request 1, .opened (.ok ()), .request 2, .noticeRequest,
   .listed (.error (.listFailed "refused")), .elapsed, .podList "2" ["a", "b"], .opened (.ok ()),
   .noticeRequest, .podList "3" ["b"], .opened (.ok ()),
   .received (.ok (.added (.sample "c" "4" "Running"))), .request 3, .cancel, .noticeCancel,
   .request 4]

theorem requests_answered_sample :
    ∃ history w, Run (.standard "pods") .waiting history w ∧ history.inputs = requestInputs ∧
      history.requests.Nodup ∧
      history.answers = [(1, true), (2, true), (3, false), (4, false)] ∧
      (∃ before outputs, ∃ after : History Pod, history = before ++ (.request 1, outputs) :: after ∧
        History.Serves (.standard "pods") .waiting 1 (before ++ [(.request 1, outputs)]) after) ∧
      w.stopped = true ∧ w.waiting = [] := by
  obtain ⟨history, w, hf⟩ : ∃ history w,
      (Engine.start (.standard "pods") .waiting).1.follow requestInputs = some (history, w) :=
    ⟨_, _, rfl⟩
  have run := Run.start.follow hf
  have hinputs : history.inputs = requestInputs := inputs_of_follow hf
  have hrequests : history.requests = [1, 2, 3, 4] := by
    rw [History.requests, hinputs]
    rfl
  have hanswers : history.answers = [(1, true), (2, true), (3, false), (4, false)] := by
    cases hf
    rfl
  have hstopped : w.stopped = true := by
    cases hf
    rfl
  have distinct : history.requests.Nodup := hrequests ▸ by decide
  obtain ⟨⟨served, refused, -, -, -, hdrained⟩, -, hfate⟩ := requests_answered run distinct
  have hone : 1 ∈ history.requests := hrequests ▸ by decide
  obtain ⟨before, outputs, after, hmade⟩ := History.exists_of_mem_requests hone
  have hserves := (hfate before 1 outputs after hmade).1 (hanswers ▸ by decide)
  exact ⟨history, w, run, hinputs, distinct, hanswers, ⟨before, outputs, after, hmade, hserves⟩,
    hstopped, hdrained hstopped⟩

end Engine

end BufferLedger
