import BufferLedger.Proofs.ReleaseSafety
import BufferLedger.Proofs.Grant

/-!
# The pipeline behind the pod watch

What the pod watch does about an input, it does at once: the copy is exchanged and the work of all
calls is queued. If objects of one version are the same, this is as if the calls had come one by
one with nothing in between (`takeIn_eq_foldl`), each as expected (`Input.allowed_change`). So all
that is true of runs of calls is true of the watch and its pipeline (`Reached.run`).
-/

namespace BufferLedger

open ClusterObject (key version)

/-! ## The calls of one input -/

namespace Input

variable {α : Type} [ClusterObject α] {k : Key} {i : Input α} {old : Option α}

theorem length_changeAt (k : Key) (i : Input α) (old : Option α) :
    (i.changeAt k old).2.length ≤ 1 := by
  have heffect := i.effect k old
  generalize i.changeAt k old = r at heffect
  cases heffect with
  | add _ _ _ | update _ _ _ | missing _ _ _ | deleted _ _ => exact Nat.le_refl 1
  | same _ _ _ _ | untouched => exact Nat.zero_le 1

theorem result_changeAt
    (same : ∀ l, i = .listed (.ok l) → ∀ x ∈ l.items, ∀ o, old = some o → key x = k →
      version o = version x → o = x) :
    (i.changeAt k old).2.foldl (fun _ c => c.result) old = (i.changeAt k old).1 := by
  match i with
  | .listed (.ok l) =>
    have heffect := effect_listed k l old
    generalize changeAt k (.listed (.ok l)) old = r at heffect ⊢
    cases heffect with
    | same hx hk hold hv =>
      obtain rfl := same l rfl _ hx _ hold hk hv
      exact hold
    | add _ _ _ | update _ _ _ | missing _ _ _ | deleted _ _ | untouched => rfl
  | .received (.ok (.added x)) | .received (.ok (.modified x)) =>
    by_cases hk : key x = k
    · cases old <;> simp [changeAt, hk, Call.result]
    · simp [changeAt, hk]
  | .received (.ok (.deleted x)) =>
    by_cases hk : key x = k <;> simp [changeAt, hk, Call.result]
  | .received (.ok (.bookmark v)) => rfl
  | .listed (.error e) | .received (.error e) | .opened a => rfl
  | .closed | .elapsed | .cancel | .noticeCancel | .request r | .noticeRequest => rfl

end Input

/-- Lists have distinct keys and repeat a version only with its object, and deleted pods are sent
in the phase in which they are known. -/
structure Input.Truthful (c : Collection Pod) (i : Input Pod) : Prop where
  distinct : i.Distinct
  same : ∀ l, i = .listed (.ok l) → ∀ x ∈ l.items, ∀ o, c.objects.get? (key x) = some o →
    version o = version x → o = x
  phase : ∀ p q, i = .received (.ok (.deleted p)) → c.objects.get? (key p) = some q →
    p.completed = q.completed

namespace Input

variable {c : Collection Pod} {i : Input Pod}

theorem replay_change (own : c.WellKeyed) (truthful : i.Truthful c) :
    replay c.objects (i.change c).2 = (i.change c).1.objects := by
  refine OrderedMap.ext_get? fun k => ?_
  obtain ⟨hobject, hcalls⟩ := change_at own truthful.distinct k
  rw [get?_replay, hcalls, hobject]
  refine result_changeAt ?_
  rintro l hl x hx o ho rfl
  exact truthful.same l hl x hx o ho

end Input

/-! ## The pipeline -/

namespace Pipeline

variable {s t : Pipeline} {pod : Key}

def takeIn (change : Collection Pod × List (Call Pod)) (s : Pipeline) : Pipeline :=
  { s with view.pods := change.1.objects, queue := s.queue ++ change.2.flatMap Pod.work }

theorem foldl_podCall (calls : List (Call Pod)) (s : Pipeline) :
    (calls.map Event.pods).foldl after s =
      { s with
        view.pods := replay s.view.pods calls
        queue := s.queue ++ calls.flatMap Pod.work } := by
  induction calls generalizing s with
  | nil => simp [replay]
  | cons c calls ih =>
    have hreplay : replay s.view.pods (c :: calls) = replay (c.applyTo s.view.pods) calls := rfl
    rw [List.map_cons, List.foldl_cons, ih, after, podCall_eq, hreplay]
    simp

theorem takeIn_eq_foldl {change : Collection Pod × List (Call Pod)}
    (h : replay s.view.pods change.2 = change.1.objects) :
    s.takeIn change = (change.2.map .pods).foldl after s := by
  rw [foldl_podCall, h]
  rfl

theorem Expects.congr {c : Call Pod} (h : t.view.pods.get? c.key = s.view.pods.get? c.key)
    (expected : s.Expects (.pods c)) : t.Expects (.pods c) := by
  cases c with
  | add p | update old new => exact h.trans expected
  | delete p stale => exact fun q hq => expected q (h ▸ hq)

theorem allowed_of_distinct {calls : List (Call Pod)}
    (distinct : calls.Pairwise fun c c' => c.key ≠ c'.key)
    (expected : ∀ c ∈ calls, s.Expects (.pods c)) : Allowed Expects s (calls.map .pods) := by
  induction calls generalizing s with
  | nil => trivial
  | cons c calls ih =>
    obtain ⟨head, tail⟩ := List.pairwise_cons.1 distinct
    refine ⟨expected c (List.mem_cons_self ..), ih tail ?_⟩
    intro c' hc'
    refine Expects.congr ?_ (expected c' (List.mem_cons_of_mem _ hc'))
    rw [after, get?_podCall, if_neg (head c' hc').symm]

end Pipeline

theorem pairwise_key_ne {α : Type} [ClusterObject α] {calls : List (Call α)}
    (h : ∀ k, (callsAbout k calls).length ≤ 1) : calls.Pairwise fun c c' => c.key ≠ c'.key := by
  induction calls with
  | nil => exact .nil
  | cons c calls ih =>
    refine List.pairwise_cons.2 ⟨?_, ih fun k => ?_⟩
    · intro c' hc' hk
      have hmem : c' ∈ callsAbout c.key calls := mem_callsAbout.2 ⟨hc', hk.symm⟩
      have hpos := List.length_pos_of_mem hmem
      have htwo := h c.key
      simp only [callsAbout, decide_true, List.filter_cons_of_pos, List.length_cons] at htwo hpos
      omega
    · refine Nat.le_trans ?_ (h k)
      exact ((List.sublist_cons_self c calls).filter _).length_le

theorem Input.allowed_change {s : Pipeline} {c : Collection Pod} {i : Input Pod}
    (own : c.WellKeyed) (truthful : i.Truthful c) (hpods : s.view.pods = c.objects) :
    Pipeline.Allowed Pipeline.Expects s ((i.change c).2.map .pods) := by
  refine Pipeline.allowed_of_distinct (pairwise_key_ne fun k => ?_) fun call hcall => ?_
  · rw [(change_at own truthful.distinct k).2]
    exact length_changeAt k i _
  · refine Pipeline.expects_of_fits (hpods ▸ fits_change own truthful.distinct hcall) ?_
    intro p q hi hq
    exact truthful.phase p q hi (hpods ▸ hq)

/-! ## The watch and its pipeline -/

namespace Pipeline

/-- The pod watch and the pipeline behind it as they may be at some time: the watch takes in
truthful inputs, the machines change somehow, and the reconciler works when it likes. -/
inductive Reached (config : WatchConfig) (mode : StartMode) : Engine Pod → Pipeline → Prop
  | start : Reached config mode (Engine.start config mode).1 .empty
  | pods {w s i w' outputs} : Reached config mode w s → w.step i = some (w', outputs) →
      i.Truthful w.collection → Reached config mode w' (s.takeIn (w'.collection, callsOf outputs))
  | machines {w s} (c : Call VirtualMachine) : Reached config mode w s →
      Reached config mode w (s.machineCall c)
  | decide {w s} : Reached config mode w s → Reached config mode w s.decideNext
  | write {w s} : Reached config mode w s → Reached config mode w s.write

variable {config : WatchConfig} {mode : StartMode} {w : Engine Pod} {s : Pipeline}

theorem Reached.wellKeyed (reached : Reached config mode w s) : w.collection.WellKeyed := by
  induction reached with
  | start =>
    rw [Engine.start_collection]
    exact Collection.wellKeyed_empty
  | pods _ hstep truthful ih =>
    rw [(Engine.step_change hstep).1]
    exact Input.change_wellKeyed ih truthful.distinct
  | machines _ _ ih | decide _ ih | write _ ih => exact ih

theorem Reached.pods_eq (reached : Reached config mode w s) :
    s.view.pods = w.collection.objects := by
  induction reached with
  | start =>
    rw [Engine.start_collection]
    rfl
  | pods _ _ _ _ => rfl
  | @machines w s c _ ih => exact (machineCall_pods c s).trans ih
  | @decide w s _ ih =>
    rw [decideNext_view]
    exact ih
  | @write w s _ ih =>
    rw [write_view]
    exact ih

theorem Reached.run (reached : Reached config mode w s) : ∃ events, Run Expects events s := by
  induction reached with
  | start => exact ⟨[], .start⟩
  | @pods w s i w' outputs reached hstep truthful ih =>
    obtain ⟨events, run⟩ := ih
    obtain ⟨hcollection, hcalls⟩ := Engine.step_change hstep
    have hreplay : replay s.view.pods (callsOf outputs) = w'.collection.objects := by
      rw [reached.pods_eq, hcollection, hcalls]
      exact Input.replay_change reached.wellKeyed truthful
    have allowed := Input.allowed_change reached.wellKeyed truthful reached.pods_eq
    rw [takeIn_eq_foldl hreplay, hcalls]
    exact ⟨_, run.follow allowed⟩
  | machines c _ ih =>
    obtain ⟨events, run⟩ := ih
    exact ⟨_, run.step (e := .machines c) trivial⟩
  | decide _ ih =>
    obtain ⟨events, run⟩ := ih
    exact ⟨_, run.step (e := .decide) trivial⟩
  | write _ ih =>
    obtain ⟨events, run⟩ := ih
    exact ⟨_, run.step (e := .write) trivial⟩

theorem Reached.live_of_entry (reached : Reached config mode w s) (hqueue : s.queue = [])
    (hidle : s.decided = none) {pod : Key} (h : (s.ledger.get? pod).isSome) :
    s.view.podIsLive pod = true := by
  obtain ⟨events, run⟩ := reached.run
  exact (backed_of_owed run pod (.inl h)).live_of_drained hqueue hidle

end Pipeline

end BufferLedger
