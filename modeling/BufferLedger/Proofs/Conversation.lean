import BufferLedger.Proofs.RelistRequests
import BufferLedger.Proofs.ServerMirror
import BufferLedger.Proofs.Stopping

/-!
# What a watch asks of its server

A watch asks for a list, for a stream of events from some version, or waits for a delay. Each step
is one turn in this conversation (`Engine.Turn`), and the turns follow fixed rules: there is a
reason for each question, a stream is asked for from the version that was heard of last, and a
failure is followed by one delay of its kind and then by the question again
(`Engine.keeps_to_protocol`).
-/

namespace BufferLedger

open ClusterObject (version)

variable {α : Type}

def DelayKind.range (config : WatchConfig) : DelayKind → DelayRange
  | .list => config.relistDelay
  | .watch => config.watchDelay

inductive Act
  | list
  | watch (version : String)
  | delay (range : DelayRange)
  deriving DecidableEq

def Output.act? (config : WatchConfig) : Output α → Option Act
  | .list => some .list
  | .watch version => some (.watch version)
  | .delay kind => some (.delay (kind.range config))
  | _ => none

def actsOf (config : WatchConfig) (outputs : List (Output α)) : List Act :=
  outputs.filterMap (Output.act? config)

/-! ## What a watch hears -/

namespace Input

def isAnswer : Input α → Bool
  | .listed _ | .opened _ | .received _ | .closed => true
  | _ => false

/-- A stream could not be opened or broke off because its version is no longer known. -/
def expires : Input α → Bool
  | .opened (.error e) | .received (.error e) => e.needsList
  | _ => false

/-- A stream could not be opened, broke off or was closed, and its version is still known. -/
def breaks : Input α → Bool
  | .opened (.error e) | .received (.error e) => !e.needsList
  | .closed => true
  | _ => false

end Input

def Input.version? [ClusterObject α] : Input α → Option String
  | .listed (.ok l) => some (l.version.getD "")
  | .received (.ok (.added x)) | .received (.ok (.modified x)) | .received (.ok (.deleted x)) =>
    version x
  | .received (.ok (.bookmark v)) => some v
  | _ => none

def lastAnswer? (inputs : List (Input α)) : Option (Input α) :=
  inputs.reverse.find? Input.isAnswer

def lastVersion [ClusterObject α] (inputs : List (Input α)) : String :=
  (inputs.reverse.findSome? Input.version?).getD ""

/-- A list came, and since then nothing has called for another one. -/
def Current (inputs : List (Input α)) : Prop :=
  ∃ before l after, inputs = before ++ .listed (.ok l) :: after ∧
    ∀ i ∈ after, i.expires = false ∧ i ≠ .noticeRequest

section Heard

variable {inputs : List (Input α)} {i : Input α}

theorem lastAnswer_append (inputs : List (Input α)) (i : Input α) :
    lastAnswer? (inputs ++ [i]) = if i.isAnswer then some i else lastAnswer? inputs := by
  cases hi : i.isAnswer <;> simp [lastAnswer?, hi]

theorem lastVersion_append [ClusterObject α] (inputs : List (Input α)) (i : Input α) :
    lastVersion (inputs ++ [i]) = i.version?.getD (lastVersion inputs) := by
  cases hi : i.version? <;> simp [lastVersion, hi]

theorem current_listed (inputs : List (Input α)) (l : Listing α) :
    Current (inputs ++ [.listed (.ok l)]) :=
  ⟨inputs, l, [], rfl, by simp⟩

theorem Current.append (h : Current inputs) (hi : i.expires = false) (hn : i ≠ .noticeRequest) :
    Current (inputs ++ [i]) := by
  obtain ⟨before, l, after, rfl, hafter⟩ := h
  refine ⟨before, l, after ++ [i], by simp, ?_⟩
  rw [List.forall_mem_append]
  exact ⟨hafter, by simpa using ⟨hi, hn⟩⟩

theorem version_change [ClusterObject α] (i : Input α) (c : Collection α) :
    (i.change c).1.version = i.version?.getD c.version := by
  match i with
  | .listed (.ok l) => rfl
  | .received (.ok (.added x)) | .received (.ok (.modified x)) | .received (.ok (.deleted x)) => rfl
  | .received (.ok (.bookmark v)) => rfl
  | .listed (.error e) | .received (.error e) | .opened a => rfl
  | .closed | .elapsed | .cancel | .noticeCancel | .request r | .noticeRequest => rfl

end Heard

theorem actsOf_append (config : WatchConfig) (a b : List (Output α)) :
    actsOf config (a ++ b) = actsOf config a ++ actsOf config b :=
  List.filterMap_append

theorem actsOf_calls (config : WatchConfig) (calls : List (Call α)) :
    actsOf config (calls.map Output.call) = [] := by
  simp [actsOf, Output.act?]

namespace Engine

theorem actsOf_finish (config : WatchConfig) (w : Engine α) : actsOf config w.finish.2 = [] := by
  simp [actsOf, finish, Output.act?]

theorem actsOf_listOutputs (config : WatchConfig) (p : Purpose) :
    actsOf config (listOutputs p : List (Output α)) = [] := by
  cases p with
  | start attempt => rfl
  | sync => rfl
  | relist r => simp [actsOf, listOutputs, Output.act?]

/-! ## Turns -/

/-- What a watch that has not been cancelled may say in one step. -/
inductive Turn (config : WatchConfig) (w : Engine α) (i : Input α) (s : Step α) : Prop
  | request {r} : i = .request r → actsOf config s.2 = [] → s.1.phase = w.phase → Turn config w i s
  | hears : w.phase.listens = true → i.isAnswer = true → i.expires = false → i.breaks = false →
      (∀ a, i ≠ .listed a) → actsOf config s.2 = [] → s.1.phase = .reading → Turn config w i s
  | lists {p l} : w.phase = .listing p → i = .listed (.ok l) →
      actsOf config s.2 = [.watch s.1.collection.version] → s.1.phase = .opening → Turn config w i s
  | listFails {p e} : w.phase = .listing p → i = .listed (.error e) →
      actsOf config s.2 = [.delay config.relistDelay] → s.1.phase = .beforeList p →
      Turn config w i s
  | givesUp {attempt e} : w.phase = .listing (.start attempt) → i = .listed (.error e) →
      .started (.error (.firstListFailed w.config.name attempt)) ∈ s.2 → actsOf config s.2 = [] →
      s.1.phase = .finished → Turn config w i s
  | breaks : w.phase.listens = true → i.breaks = true →
      actsOf config s.2 = [.delay config.watchDelay] → s.1.phase = .beforeWatch → Turn config w i s
  | expires : w.phase.listens = true → i.expires = true → actsOf config s.2 = [.list] →
      s.1.phase = .listing (.relist none) → Turn config w i s
  | relists {r} : w.phase = .reading → r ∈ w.waiting → i = .noticeRequest →
      actsOf config s.2 = [.list] → s.1.phase = .listing (.relist (some r)) → Turn config w i s
  | listsAgain {p} : w.phase = .beforeList p → i = .elapsed → actsOf config s.2 = [.list] →
      s.1.phase = .listing p.again → Turn config w i s
  | watchesAgain : w.phase = .beforeWatch → i = .elapsed →
      actsOf config s.2 = [.watch s.1.collection.version] → s.1.phase = .opening → Turn config w i s

section Turns

variable {config : WatchConfig} {mode : StartMode} {w w' : Engine α} {i : Input α} {s : Step α}
  {outputs : List (Output α)} {p : Purpose} {history : History α}

theorem turn_listFailed (config : WatchConfig) {e : WatchError} (hp : w.phase = .listing p) :
    Turn config w (.listed (.error e)) (w.listFailed p) := by
  cases p with
  | start attempt =>
    simp only [listFailed]
    split
    · refine .givesUp hp rfl (List.mem_append_right _ (List.mem_singleton_self _)) ?_ rfl
      simp only [failStart, actsOf_append, actsOf_finish]
      rfl
    · exact .listFails hp rfl rfl rfl
  | sync => exact .listFails hp rfl rfl rfl
  | relist r => exact .listFails hp rfl rfl rfl

theorem turn_watchFailed (config : WatchConfig) {e : WatchError} (hlistens : w.phase.listens = true)
    (hexpires : i.expires = e.needsList) (hbreaks : i.breaks = !e.needsList) :
    Turn config w i (w.watchFailed e) := by
  cases he : e.needsList with
  | true =>
    simp only [watchFailed, he, if_true]
    exact .expires hlistens (hexpires.trans he) rfl rfl
  | false =>
    simp only [watchFailed, he, Bool.false_eq_true, if_false]
    exact .breaks hlistens (by rw [hbreaks, he]; rfl) rfl rfl

variable [ClusterObject α]

theorem actsOf_listSucceeded (config : WatchConfig) (w : Engine α) (p : Purpose) (l : Listing α) :
    actsOf config (w.listSucceeded p l).2 = [.watch (l.version.getD "")] := by
  simp only [listSucceeded, openWatch, actsOf_append, actsOf_calls, actsOf_listOutputs]
  rfl

theorem turn_listSucceeded (config : WatchConfig) {l : Listing α} (hp : w.phase = .listing p) :
    Turn config w (.listed (.ok l)) (w.listSucceeded p l) :=
  .lists hp rfl (actsOf_listSucceeded config w p l) rfl

theorem turn_of_move (config : WatchConfig) (hmove : Move w i s) (hc : w.cancelled = false)
    (hi : i ≠ .cancel) : Turn config w i s := by
  cases hmove with
  | cancel => exact absurd rfl hi
  | noticeCancel hcancelled _ =>
    rw [hc] at hcancelled
    cases hcancelled
  | lateRequest _ => exact .request rfl rfl rfl
  | request _ => exact .request rfl rfl rfl
  | noticeRequest hp _ hr => exact .relists hp (by simp [waiting, hr]) rfl rfl rfl
  | listed hp => exact turn_listSucceeded config hp
  | listFailed hp => exact turn_listFailed config hp
  | opened hp => exact .hears (by rw [hp]; rfl) rfl rfl rfl (by simp) rfl rfl
  | openFailed hp => exact turn_watchFailed config (by rw [hp]; rfl) rfl rfl
  | received hp _ _ =>
    exact .hears (by rw [hp]; rfl) rfl rfl rfl (by simp) (actsOf_calls config _) hp
  | streamFailed hp _ _ => exact turn_watchFailed config (by rw [hp]; rfl) rfl rfl
  | closed hp _ _ => exact .breaks (by rw [hp]; rfl) rfl rfl rfl
  | listAgain hp => exact .listsAgain hp rfl rfl rfl
  | watchAgain hp => exact .watchesAgain hp rfl rfl rfl

/-! ## What a watch knows -/

def Heard (inputs : List (Input α)) : Phase → Prop
  | .beforeList _ => ∃ e, lastAnswer? inputs = some (.listed (.error e))
  | .beforeWatch => Current inputs ∧ ∃ j, lastAnswer? inputs = some j ∧ j.breaks = true
  | .opening | .reading => Current inputs
  | .listing _ | .finished => True

variable {inputs : List (Input α)}

omit [ClusterObject α] in
theorem Heard.current {q : Phase} (h : Heard inputs q) (hq : q.listens = true) :
    Current inputs := by
  cases q with
  | opening | reading => exact h
  | listing p | beforeList p | beforeWatch | finished => cases hq

omit [ClusterObject α] in
theorem Heard.request {q : Phase} (h : Heard inputs q) (r : Nat) :
    Heard (inputs ++ [.request r]) q := by
  have hlast : lastAnswer? (inputs ++ [.request r]) = lastAnswer? inputs :=
    lastAnswer_append inputs (.request r)
  have hcurrent (hc : Current inputs) : Current (inputs ++ [.request r]) := hc.append rfl (by simp)
  cases q with
  | beforeList p =>
    obtain ⟨e, he⟩ := h
    exact ⟨e, hlast.trans he⟩
  | beforeWatch =>
    obtain ⟨hc, j, hj, hbreaks⟩ := h
    exact ⟨hcurrent hc, j, hlast.trans hj, hbreaks⟩
  | opening | reading => exact hcurrent h
  | listing p | finished => trivial

omit [ClusterObject α] in
theorem expires_of_breaks (h : i.breaks = true) : i.expires = false ∧ i ≠ .noticeRequest := by
  match i with
  | .opened (.error e) | .received (.error e) =>
    exact ⟨by simpa [Input.breaks, Input.expires] using h, by simp⟩
  | .closed => exact ⟨rfl, by simp⟩

omit [ClusterObject α] in
theorem isAnswer_of_breaks (h : i.breaks = true) : i.isAnswer = true := by
  match i with
  | .opened (.error e) | .received (.error e) | .closed => rfl

omit [ClusterObject α] in
theorem Heard.turn (h : Heard inputs w.phase) (hturn : Turn config w i s) :
    Heard (inputs ++ [i]) s.1.phase := by
  cases hturn with
  | request hi _ hphase =>
    rw [hi, hphase]
    exact h.request _
  | hears hlistens hanswer hexpires _ _ _ hphase =>
    rw [hphase]
    refine (h.current hlistens).append hexpires ?_
    rintro rfl
    cases hanswer
  | lists _ hi _ hphase =>
    rw [hi, hphase]
    exact current_listed inputs _
  | @listFails p e _ hi _ hphase =>
    rw [hi, hphase]
    exact ⟨e, lastAnswer_append inputs _⟩
  | givesUp _ _ _ _ hphase =>
    rw [hphase]
    trivial
  | breaks hlistens hbreaks _ hphase =>
    rw [hphase]
    obtain ⟨hexpires, hne⟩ := expires_of_breaks hbreaks
    refine ⟨(h.current hlistens).append hexpires hne, i, ?_, hbreaks⟩
    rw [lastAnswer_append, isAnswer_of_breaks hbreaks, if_pos rfl]
  | expires _ _ _ hphase | relists _ _ _ _ hphase | listsAgain _ _ _ hphase =>
    rw [hphase]
    trivial
  | watchesAgain hp hi _ hphase =>
    rw [hp] at h
    rw [hi, hphase]
    exact h.1.append rfl (by simp)

theorem Run.goes (run : Run config mode history w) (hc : .cancel ∉ history.inputs) :
    w.cancelled = false := by
  rw [Bool.eq_false_iff, ne_eq, run.cancelled_iff]
  exact hc

theorem Run.heard (run : Run config mode history w) (hc : .cancel ∉ history.inputs) :
    Heard history.inputs w.phase := by
  induction run with
  | start => cases mode <;> trivial
  | @step history w i w' outputs run hstep ih =>
    rw [History.inputs_append, List.mem_append, List.mem_singleton, not_or] at hc
    rw [History.inputs_append]
    exact (ih hc.1).turn (turn_of_move config (move_of_step hstep) (run.goes hc.1) (Ne.symm hc.2))

theorem Run.version_eq (run : Run config mode history w) :
    w.collection.version = lastVersion history.inputs := by
  induction run with
  | start => cases mode <;> rfl
  | step run hstep ih =>
    rw [(step_change hstep).1, version_change, History.inputs_append, lastVersion_append, ih]

/-! ## Delays -/

/-- As long as a delay lasts, requests may be made and nothing else happens; after it comes the next
act. -/
inductive Pause (config : WatchConfig) (next : Act) : History α → Prop
  | lasting : Pause config next []
  | request {r outputs rest} : actsOf config outputs = [] → Pause config next rest →
      Pause config next ((.request r, outputs) :: rest)
  | over {outputs rest} : actsOf config outputs = [next] →
      Pause config next ((.elapsed, outputs) :: rest)

def Delays (w : Engine α) : Act → Prop
  | .list => ∃ p, w.phase = .beforeList p
  | .watch v => w.phase = .beforeWatch ∧ v = w.collection.version
  | .delay _ => False

theorem Delays.turn {next : Act} (h : Delays w next) (hstep : w.step i = some (w', outputs))
    (hturn : Turn config w i (w', outputs)) :
    (∃ r, i = .request r ∧ actsOf config outputs = [] ∧ Delays w' next) ∨
      i = .elapsed ∧ actsOf config outputs = [next] := by
  have hcollection := (step_change hstep).1
  cases next with
  | list =>
    obtain ⟨p, hp⟩ := h
    cases hturn with
    | request hi hacts hphase => exact .inl ⟨_, hi, hacts, p, hphase.trans hp⟩
    | listsAgain _ hi hacts _ => exact .inr ⟨hi, hacts⟩
    | hears hphase | breaks hphase | expires hphase | lists hphase | listFails hphase
    | givesUp hphase | relists hphase | watchesAgain hphase =>
      rw [hp] at hphase
      cases hphase
  | watch v =>
    obtain ⟨hp, rfl⟩ := h
    cases hturn with
    | request hi hacts hphase =>
      rw [hi] at hcollection
      exact .inl ⟨_, hi, hacts, hphase.trans hp, congrArg _ hcollection.symm⟩
    | watchesAgain _ hi hacts _ =>
      rw [hi] at hcollection
      exact .inr ⟨hi, hacts.trans (by rw [hcollection]; rfl)⟩
    | hears hphase | breaks hphase | expires hphase | lists hphase | listFails hphase
    | givesUp hphase | relists hphase | listsAgain hphase =>
      rw [hp] at hphase
      cases hphase
  | delay range => exact h.elim

theorem goes_of_step (hstep : w.step i = some (w', outputs)) (hc : w.cancelled = false)
    (hi : i ≠ .cancel) : w'.cancelled = false := by
  rw [Bool.eq_false_iff, ne_eq, cancelled_of_move (move_of_step hstep), hc]
  simpa using hi

theorem Stretch.pause {next : Act} {h : History α} (config : WatchConfig) (stretch : Stretch w h w')
    (hdelays : Delays w next) (hc : w.cancelled = false) (hnever : .cancel ∉ h.inputs) :
    Pause config next h := by
  induction stretch with
  | nil => exact .lasting
  | @cons w i v outputs h last hstep _ ih =>
    obtain ⟨hi, hrest⟩ : .cancel ≠ i ∧ .cancel ∉ h.inputs := by
      simpa [History.inputs] using hnever
    have hturn := turn_of_move config (move_of_step hstep) hc hi.symm
    rcases hdelays.turn hstep hturn with ⟨r, rfl, hacts, hstill⟩ | ⟨rfl, hacts⟩
    · exact .request hacts (ih hstill (goes_of_step hstep hc hi.symm) hrest)
    · exact .over hacts

/-! ## The end of a watch -/

omit [ClusterObject α] in
theorem Turn.ends (hturn : Turn config w i s) (h : s.1.phase = .finished) :
    w.phase = .finished ∨ w.phase.starting = true := by
  cases hturn with
  | request _ _ hphase => exact .inl (hphase.symm.trans h)
  | givesUp hp => exact .inr (by rw [hp]; rfl)
  | hears _ _ _ _ _ _ hphase | relists _ _ _ _ hphase | lists _ _ _ hphase | listFails _ _ _ hphase
  | breaks _ _ _ hphase | expires _ _ _ hphase | listsAgain _ _ _ hphase
  | watchesAgain _ _ _ hphase =>
    rw [hphase] at h
    cases h

theorem Run.goes_on {u : Unit} (run : Run config mode history w) (hc : .cancel ∉ history.inputs)
    (h : .started (.ok u) ∈ deeds config mode history) :
    w.phase.starting = false ∧ w.phase ≠ .finished := by
  induction run with
  | start =>
    cases mode with
    | waiting => simp [deeds, Engine.start] at h
    | atOnce => exact ⟨rfl, by simp [Engine.start]⟩
  | @step history w i w' outputs run hstep ih =>
    have hmove := move_of_step hstep
    rw [History.inputs_append, List.mem_append, List.mem_singleton, not_or] at hc
    rw [deeds_append, List.mem_append] at h
    rcases h with h | h
    · obtain ⟨hstarting, hgoes⟩ := ih hc.1 h
      have hturn := turn_of_move config hmove (run.goes hc.1) (Ne.symm hc.2)
      rw [← Bool.not_eq_true] at hstarting ⊢
      refine ⟨fun hs => hstarting (starting_of_move hmove hs), fun hs => ?_⟩
      exact (hturn.ends hs).elim hgoes hstarting
    · have hphase : w'.phase = .opening := (started_of_move hmove h).2
      exact ⟨by rw [hphase]; rfl, by simp [hphase]⟩

/-! ## One turn -/

omit [ClusterObject α] in
theorem Turn.acts_of_expires (hturn : Turn config w i s) (h : i.expires = true) :
    actsOf config s.2 = [.list] := by
  cases hturn with
  | expires _ _ hacts _ => exact hacts
  | hears _ _ hnot =>
    rw [hnot] at h
    cases h
  | breaks _ hbreaks =>
    rw [(expires_of_breaks hbreaks).1] at h
    cases h
  | request hi | lists _ hi | listFails _ hi | givesUp _ hi | relists _ _ hi | listsAgain _ hi
  | watchesAgain _ hi =>
    rw [hi] at h
    cases h

omit [ClusterObject α] in
theorem Turn.acts_of_breaks (hturn : Turn config w i s) (h : i.breaks = true) :
    actsOf config s.2 = [.delay config.watchDelay] ∧
      Delays s.1 (.watch s.1.collection.version) := by
  cases hturn with
  | breaks _ _ hacts hphase => exact ⟨hacts, hphase, rfl⟩
  | hears _ _ _ hnot =>
    rw [hnot] at h
    cases h
  | expires _ hexpires =>
    rw [(expires_of_breaks h).1] at hexpires
    cases hexpires
  | request hi | lists _ hi | listFails _ hi | givesUp _ hi | relists _ _ hi | listsAgain _ hi
  | watchesAgain _ hi =>
    rw [hi] at h
    cases h

omit [ClusterObject α] in
theorem Turn.acts_of_listFailed {e : WatchError} (hturn : Turn config w (.listed (.error e)) s) :
    (∃ name attempt, .started (.error (.firstListFailed name attempt)) ∈ s.2) ∨
      actsOf config s.2 = [.delay config.relistDelay] ∧ Delays s.1 .list := by
  cases hturn with
  | listFails _ _ hacts hphase => exact .inr ⟨hacts, _, hphase⟩
  | givesUp _ _ hfails => exact .inl ⟨_, _, hfails⟩
  | hears _ _ _ _ hnot => exact absurd rfl (hnot _)
  | breaks _ h | expires _ h | request h | lists _ h | relists _ _ h | listsAgain _ h
  | watchesAgain _ h => cases h

def History.ListDue (before : History α) (i : Input α) : Prop :=
  (i = .elapsed ∧ ∃ e, lastAnswer? before.inputs = some (.listed (.error e))) ∨
    i.expires = true ∨ (i = .noticeRequest ∧ before.answers.length < before.requests.length)

theorem Run.unanswered (run : Run config mode history w) {r : Nat}
    (hgoes : w.phase ≠ .finished) (hr : r ∈ w.waiting) :
    history.answers.length < history.requests.length := by
  obtain ⟨served, refused, accounts⟩ := run.accounts
  obtain rfl := accounts.refused_of_going hgoes
  have hwaiting : 0 < w.waiting.length := List.length_pos_of_mem hr
  rw [accounts.requests, accounts.answers]
  simpa using hwaiting

theorem Run.listDue (run : Run config mode history w) (hc : .cancel ∉ history.inputs)
    (hturn : Turn config w i s) (h : .list ∈ actsOf config s.2) : history.ListDue i := by
  have hheard := run.heard hc
  cases hturn with
  | listsAgain hp hi =>
    rw [hp] at hheard
    exact .inl ⟨hi, hheard⟩
  | expires _ hexpires => exact .inr (.inl hexpires)
  | relists hp hr hi => exact .inr (.inr ⟨hi, run.unanswered (by simp [hp]) hr⟩)
  | request _ hacts | hears _ _ _ _ _ hacts | lists _ _ hacts | listFails _ _ hacts
  | givesUp _ _ _ hacts | breaks _ _ hacts | watchesAgain _ _ hacts => simp [hacts] at h

omit [ClusterObject α] in
theorem Turn.opening_of_watch {v : String} (hturn : Turn config w i s)
    (h : .watch v ∈ actsOf config s.2) :
    s.1.phase = .opening ∧ v = s.1.collection.version := by
  cases hturn with
  | lists _ _ hacts hphase | watchesAgain _ _ hacts hphase =>
    exact ⟨hphase, by simpa [hacts] using h⟩
  | request _ hacts | hears _ _ _ _ _ hacts | listFails _ _ hacts | givesUp _ _ _ hacts
  | breaks _ _ hacts | expires _ _ hacts | relists _ _ _ hacts | listsAgain _ _ hacts =>
    simp [hacts] at h

/-- As long as it is not cancelled, a watch asks for a list first, and again after a list that
failed, a version that expired or a request. It asks for a stream where no list is due, and always
from the version of the collection, which is the one it heard of last. A list that failed is
followed by one delay and the next list, unless the start is given up, and a stream that failed or
was closed by one delay and the next stream. Once started the watch goes on. -/
theorem keeps_to_protocol (run : Run config mode history w)
    (uncancelled : .cancel ∉ history.inputs) :
    actsOf config (Engine.start config mode : Step α).2 = [.list] ∧
    w.collection.version = lastVersion history.inputs ∧
    (.started (.ok ()) ∈ deeds config mode history → w.stopped = false) ∧
    ∀ (before : History α) i outputs (after : History α),
      history = before ++ (i, outputs) :: after →
      (.list ∈ actsOf config outputs → before.ListDue i) ∧
      (∀ v, .watch v ∈ actsOf config outputs →
        v = lastVersion (before.inputs ++ [i]) ∧ Current (before.inputs ++ [i])) ∧
      (i.expires = true → actsOf config outputs = [.list]) ∧
      (∀ e, i = .listed (.error e) →
        (mode = .waiting ∧
          ∃ name attempt, .started (.error (.firstListFailed name attempt)) ∈ outputs) ∨
        actsOf config outputs = [.delay config.relistDelay] ∧ Pause config .list after) ∧
      (i.breaks = true → actsOf config outputs = [.delay config.watchDelay] ∧
        Pause config (.watch (lastVersion (before.inputs ++ [i]))) after) := by
  have hgoesOn (h : .started (.ok ()) ∈ deeds config mode history) : w.stopped = false := by
    rw [← Bool.not_eq_true, run.flagged.stopped]
    exact (run.goes_on uncancelled h).2
  refine ⟨by cases mode <;> rfl, run.version_eq, hgoesOn, ?_⟩
  rintro before i outputs after rfl
  obtain ⟨v, v', hbefore, hstep, hafter⟩ := run.split_at
  obtain ⟨hearlier, hi, hlater⟩ :
      .cancel ∉ before.inputs ∧ .cancel ≠ i ∧ .cancel ∉ after.inputs := by
    simpa [History.inputs] using uncancelled
  have hgoes := hbefore.goes hearlier
  have hmove := move_of_step hstep
  have hturn := turn_of_move config hmove hgoes hi.symm
  have hnext := hbefore.step hstep
  have hversion := hnext.version_eq
  rw [History.inputs_append] at hversion
  have hpause {next : Act} (hdelays : Delays v' next) : Pause config next after :=
    hafter.pause config hdelays (goes_of_step hstep hgoes hi.symm) hlater
  refine ⟨hbefore.listDue hearlier hturn, ?_, hturn.acts_of_expires, ?_, ?_⟩
  · intro asked hasked
    obtain ⟨hphase, rfl⟩ := hturn.opening_of_watch hasked
    have hheard := (hbefore.heard hearlier).turn hturn
    rw [hphase] at hheard
    exact ⟨hversion, hheard⟩
  · rintro e rfl
    rcases hturn.acts_of_listFailed with ⟨name, attempt, hfails⟩ | ⟨hacts, hdelays⟩
    · obtain ⟨hstarting, -⟩ := started_of_move hmove hfails
      exact .inl ⟨mode_of_starting hbefore hstarting, name, attempt, hfails⟩
    · exact .inr ⟨hacts, hpause hdelays⟩
  · intro hbreaks
    obtain ⟨hacts, hdelays⟩ := hturn.acts_of_breaks hbreaks
    exact ⟨hacts, hpause (hversion ▸ hdelays)⟩

end Turns

def talkConfig : WatchConfig :=
  ⟨"pods", .millis 10 20, .millis 30 40, some 5⟩

def talkInputs : List (Input Pod) :=
  [.podList "1" ["a"], .opened (.ok ()), .received (.ok (.added (.sample "b" "2" "Running"))),
   .closed, .request 1, .elapsed, .opened (.error (.versionExpired "gone")),
   .listed (.error (.listFailed "refused")), .elapsed, .podList "5" ["a"]]

theorem keeps_to_protocol_sample :
    ∃ history w, Run talkConfig .waiting history w ∧ history.inputs = talkInputs ∧
      .cancel ∉ history.inputs ∧ w.stopped = false ∧ w.collection.version = "5" ∧
      history.flatMap (fun e => actsOf talkConfig e.2) =
        [.watch "1", .delay talkConfig.watchDelay, .watch "2", .list, .delay talkConfig.relistDelay,
         .list, .watch "5"] ∧
      ∃ before outputs, ∃ after : History Pod, history = before ++ (.closed, outputs) :: after ∧
        Pause talkConfig (.watch "2") after := by
  obtain ⟨history, w, hf⟩ : ∃ history w,
      (Engine.start talkConfig .waiting).1.follow talkInputs = some (history, w) := ⟨_, _, rfl⟩
  have run : Run talkConfig .waiting history w := Run.start.follow hf
  have hinputs : history.inputs = talkInputs := inputs_of_follow hf
  have uncancelled : .cancel ∉ history.inputs := by simp [hinputs, talkInputs, Input.podList]
  have hacts : history.flatMap (fun e => actsOf talkConfig e.2) =
      [.watch "1", .delay talkConfig.watchDelay, .watch "2", .list, .delay talkConfig.relistDelay,
       .list, .watch "5"] := by
    cases hf
    rfl
  have hstarted : .started (.ok ()) ∈ deeds talkConfig .waiting history := by
    cases hf
    simp [deeds, listOutputs]
  obtain ⟨before, outputs, after, hsplit, hearlier⟩ : ∃ before outputs, ∃ after : History Pod,
      history = before ++ (.closed, outputs) :: after ∧ before.inputs = talkInputs.take 3 := by
    cases hf
    exact ⟨[_, _, _], _, _, rfl, rfl⟩
  obtain ⟨-, hversion, hgoes, hrules⟩ := keeps_to_protocol run uncancelled
  have hpause := ((hrules before .closed outputs after hsplit).2.2.2.2 rfl).2
  rw [hearlier] at hpause
  refine ⟨history, w, run, hinputs, uncancelled, hgoes hstarted, ?_, hacts, before, outputs, after,
    hsplit, hpause⟩
  rw [hversion, hinputs]
  rfl

end Engine

end BufferLedger
