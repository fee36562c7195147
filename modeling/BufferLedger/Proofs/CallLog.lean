import BufferLedger.Proofs.EngineRun

/-!
# The log of calls

The calls of a watch are a faithful log of its collection (`log_follows_collection`): each call
fits the objects it finds, each watched deletion comes from one event, and whoever replays the
calls holds the same keys in the same versions. An object that a list replaces by one of the same
version is not told, so the replayed objects are not the very same.
-/

namespace BufferLedger

open ClusterObject (key version)

variable {α : Type} [ClusterObject α]

/-- What a call says is true of the objects before the input that it tells of. -/
inductive Call.Fits (objects : OrderedMap Key α) (i : Input α) : Call α → Prop
  | add {x} : objects.get? (ClusterObject.key x) = none → Fits objects i (.add x)
  | update {old new} : objects.get? (ClusterObject.key new) = some old →
      ClusterObject.key old = ClusterObject.key new → Fits objects i (.update old new)
  | missing {x} {l : Listing α} : i = .listed (.ok l) →
      objects.get? (ClusterObject.key x) = some x →
      ClusterObject.key x ∉ l.items.map ClusterObject.key → Fits objects i (.delete x true)
  | deleted {x} : i = .received (.ok (.deleted x)) → Fits objects i (.delete x false)

def Call.watched? : Call α → Option α
  | .delete x false => some x
  | _ => none

def Input.deleted? : Input α → Option α
  | .received (.ok (.deleted x)) => some x
  | _ => none

/-! ## One key -/

theorem Call.fits_of_changeAt {objects : OrderedMap Key α} {i : Input α} {c : Call α}
    (own : OwnKeys objects) (h : c ∈ (i.changeAt c.key (objects.get? c.key)).2) :
    c.Fits objects i := by
  have heffect := i.effect c.key (objects.get? c.key)
  generalize i.changeAt c.key (objects.get? c.key) = r at heffect h
  cases heffect with
  | add hx hk hnone =>
    obtain rfl := List.mem_singleton.1 h
    exact .add hnone
  | update hx hk hsome =>
    obtain rfl := List.mem_singleton.1 h
    exact .update hsome (own _ _ hsome)
  | same hx hk hsome hv => cases h
  | missing hlist hlost hsome =>
    obtain rfl := List.mem_singleton.1 h
    exact .missing hlist hsome hlost
  | deleted hevent hk =>
    obtain rfl := List.mem_singleton.1 h
    exact .deleted hevent
  | untouched => cases h

theorem Input.version_changeAt (k : Key) (i : Input α) {followed old : Option α}
    (h : followed.map version = old.map version) :
    ((i.changeAt k old).2.foldl (fun _ c => c.result) followed).map version =
      (i.changeAt k old).1.map version := by
  have heffect := i.effect k old
  generalize i.changeAt k old = r at heffect
  cases heffect with
  | add hx hk hnone => rfl
  | update hx hk hsome => rfl
  | same hx hk hsome hv =>
    -- An equal version is not told, and followers are at that version already.
    subst hsome
    exact h.trans (congrArg some hv)
  | missing hlist hlost hsome => rfl
  | deleted hevent hk => rfl
  | untouched => exact h

theorem Input.deletions_changeAt (k : Key) (i : Input α) (x : α) :
    (i.changeAt k (some x)).2.countP Call.isDeletion =
      if (i.changeAt k (some x)).1.isSome then 0 else 1 := by
  have heffect := i.effect k (some x)
  generalize i.changeAt k (some x) = r at heffect
  cases heffect with
  | add hx hk hnone => cases hnone
  | update hx hk hsome => rfl
  | same hx hk hsome hv => rfl
  | missing hlist hlost hsome => rfl
  | deleted hevent hk => rfl
  | untouched => rfl

/-! ## One input -/

theorem Input.fits_change {i : Input α} {collection : Collection α} (own : collection.WellKeyed)
    (distinct : i.Distinct) {c : Call α} (h : c ∈ (i.change collection).2) :
    c.Fits collection.objects i := by
  have hc : c ∈ callsAbout c.key (i.change collection).2 := mem_callsAbout.2 ⟨h, rfl⟩
  rw [(change_at own distinct c.key).2] at hc
  exact Call.fits_of_changeAt own hc

theorem Input.watched_change {i : Input α} {collection : Collection α}
    (own : collection.WellKeyed) (distinct : i.Distinct) :
    (i.change collection).2.filterMap Call.watched? = i.deleted?.toList := by
  have hnone (hi : i.deleted? = none) :
      (i.change collection).2.filterMap Call.watched? = i.deleted?.toList := by
    rw [hi, Option.toList_none, List.filterMap_eq_nil_iff]
    intro c hc
    cases fits_change own distinct hc with
    | deleted h =>
      rw [h] at hi
      cases hi
    | _ => rfl
  match i with
  | .received (.ok (.deleted x)) => rfl
  | .received (.ok (.added x)) | .received (.ok (.modified x)) => exact hnone rfl
  | .received (.ok (.bookmark v)) => exact hnone rfl
  | .listed (.ok l) => exact hnone rfl
  | .listed (.error e) | .received (.error e) | .opened a => exact hnone rfl
  | .closed | .elapsed | .cancel | .noticeCancel | .request r | .noticeRequest => exact hnone rfl

theorem Input.deletions_change {i : Input α} {collection : Collection α}
    (own : collection.WellKeyed) (distinct : i.Distinct) {k : Key}
    (held : (collection.objects.get? k).isSome) :
    (i.change collection).2.countP (fun c => c.isDeletion && decide (c.key = k)) =
      if ((i.change collection).1.objects.get? k).isSome then 0 else 1 := by
  obtain ⟨x, hx⟩ := Option.isSome_iff_exists.1 held
  obtain ⟨hobject, hcalls⟩ := change_at own distinct k
  have habout : (i.change collection).2.countP (fun c => c.isDeletion && decide (c.key = k)) =
      (callsAbout k (i.change collection).2).countP Call.isDeletion := by
    rw [callsAbout, List.countP_filter]
  rw [habout, hcalls, hobject, hx]
  exact deletions_changeAt k i x

theorem Input.version_replay_change {i : Input α} {collection : Collection α}
    (own : collection.WellKeyed) (distinct : i.Distinct) {followed : OrderedMap Key α} {k : Key}
    (h : (followed.get? k).map version = (collection.objects.get? k).map version) :
    ((replay followed (i.change collection).2).get? k).map version =
      ((i.change collection).1.objects.get? k).map version := by
  obtain ⟨hobject, hcalls⟩ := change_at own distinct k
  rw [get?_replay, hcalls, hobject]
  exact version_changeAt k i h

/-! ## Runs -/

section Runs

variable {config : WatchConfig} {mode : StartMode} {history : Engine.History α} {w : Engine α}

theorem Engine.Run.version_replay (run : Engine.Run config mode history w)
    (distinct : ∀ i ∈ history.inputs, i.Distinct) (k : Key) :
    ((replay .empty history.calls).get? k).map version =
      (w.collection.objects.get? k).map version := by
  induction run with
  | start =>
    rw [start_collection]
    rfl
  | @step history w i w' outputs run hstep ih =>
    obtain ⟨hbefore, hi⟩ := History.forall_inputs_append.1 distinct
    obtain ⟨hcollection, hcalls⟩ := step_change hstep
    rw [History.calls_append, replay_append, hcollection, hcalls]
    exact Input.version_replay_change (run.wellKeyed hbefore) hi (ih hbefore)

theorem Engine.Run.watched_calls (run : Engine.Run config mode history w)
    (distinct : ∀ i ∈ history.inputs, i.Distinct) :
    history.calls.filterMap Call.watched? = history.inputs.filterMap Input.deleted? := by
  induction run with
  | start => rfl
  | @step history w i w' outputs run hstep ih =>
    obtain ⟨hbefore, hi⟩ := History.forall_inputs_append.1 distinct
    have hcalls := (step_change hstep).2
    have hwatched := Input.watched_change (run.wellKeyed hbefore) hi
    rw [History.calls_append, History.inputs_append, List.filterMap_append, List.filterMap_append,
      ih hbefore, hcalls, hwatched]
    cases hd : i.deleted? <;> simp [hd]

/-- Replaying the calls gives the keys and versions of the collection, watched deletions are the
deleting events one for one, and with any further input every call fits the objects before it and
each object that is lost is deleted once. -/
theorem log_follows_collection (run : Engine.Run config mode history w)
    (distinct : ∀ i ∈ history.inputs, i.Distinct) :
    (∀ k, ((replay .empty history.calls).get? k).map version =
      (w.collection.objects.get? k).map version) ∧
    history.calls.filterMap Call.watched? = history.inputs.filterMap Input.deleted? ∧
    ∀ i w' outputs, w.step i = some (w', outputs) → i.Distinct →
      (∀ c ∈ callsOf outputs, c.Fits w.collection.objects i) ∧
      (callsOf outputs).filterMap Call.watched? = i.deleted?.toList ∧
      ∀ k, (w.collection.objects.get? k).isSome →
        (callsOf outputs).countP (fun c => c.isDeletion && decide (c.key = k)) =
          if (w'.collection.objects.get? k).isSome then 0 else 1 := by
  refine ⟨run.version_replay distinct, run.watched_calls distinct, ?_⟩
  intro i w' outputs hstep hi
  have own := run.wellKeyed distinct
  obtain ⟨hcollection, hcalls⟩ := Engine.step_change hstep
  rw [hcalls, hcollection]
  exact ⟨fun c hc => Input.fits_change own hi hc, Input.watched_change own hi,
    fun k held => Input.deletions_change own hi held⟩

end Runs

def sampleInputs : List (Input Pod) :=
  [.listed (.ok ⟨some "1", [.sample "a" "1" "Running", .sample "b" "1" "Running"]⟩),
   .opened (.ok ()), .received (.ok (.modified (.sample "a" "2" "Running"))),
   .received (.ok (.deleted (.sample "b" "3" "Running")))]

theorem log_follows_sample :
    ∃ history w, Engine.Run (.standard "pods") .waiting history w ∧
      history.inputs = sampleInputs ∧ (∀ i ∈ history.inputs, i.Distinct) ∧
      history.calls = [.add (.sample "a" "1" "Running"), .add (.sample "b" "1" "Running"),
        .update (.sample "a" "1" "Running") (.sample "a" "2" "Running"),
        .delete (.sample "b" "3" "Running") false] ∧
      ((replay .empty history.calls).get? ⟨"default", "a"⟩).map version = some (some "2") := by
  obtain ⟨history, w, hf⟩ : ∃ history w,
      (Engine.start (.standard "pods") .waiting).1.follow sampleInputs = some (history, w) :=
    ⟨_, _, rfl⟩
  have run := Engine.Run.start.follow hf
  cases hf
  have distinct : ∀ i ∈ sampleInputs, i.Distinct := by
    simp [sampleInputs, Input.Distinct, List.nodup_cons]
    decide
  refine ⟨_, _, run, rfl, distinct, rfl, ?_⟩
  exact (log_follows_collection run distinct).1 ⟨"default", "a"⟩

end BufferLedger
