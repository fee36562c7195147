import BufferLedger.Proofs.PodFeed

/-!
# What is left of a pod's entry

Whether a pod is to have an entry while the machines stay is a matter of the pod as it is, of
whether it has been there all along and of the entry that it had at first (`standing`). What an
input asks for leads from what stands before to what stands after. For an event of a stream this
needs that a pod does not change for the worse while it stays (`Input.leaves_of_streams`); a list
takes every pod that was there for one that stayed (`Input.leaves_of_list`).
-/

namespace BufferLedger

open ClusterObject (key version)

/-! ## Items about other pods -/

theorem WorkItem.pod_of_reserves {c : ClusterView} {pod : Key} {item : WorkItem}
    (h : item.reserves c pod = true) : item.pod = pod := by
  cases item with
  | observed p key | podStarted key machine =>
    simp only [reserves, observes, Bool.and_eq_true, decide_eq_true_eq] at h
    exact h.1
  | machinePodGone key | podGone key | scalingDisabled key | boundsChanged p key => cases h

theorem WorkItem.reserves_congr {c c' : ClusterView} (h : c'.machines = c.machines) (pod : Key)
    (item : WorkItem) : item.reserves c' pod = item.reserves c pod := by
  cases item with
  | podStarted key machine => rw [reserves, reserves, ClusterView.grant?, ClusterView.grant?, h]
  | _ => rfl

section Held

variable {makes : WorkItem → Bool} {pod : Key}

theorem heldAfter_of_others (hmakes : ∀ item, makes item = true → item.pod = pod)
    {items : List WorkItem} (h : ∀ item ∈ items, item.pod ≠ pod) (held : Bool) :
    heldAfter makes pod items held = held := by
  induction items generalizing held with
  | nil => rfl
  | cons item items ih =>
    have hitem := h item (List.mem_cons_self ..)
    have hdrops : item.drops pod = false := by
      rw [Bool.eq_false_iff]
      exact fun hd => hitem (WorkItem.pod_of_drops hd)
    have hmake : makes item = false := by
      rw [Bool.eq_false_iff]
      exact fun hm => hitem (hmakes item hm)
    rw [heldAfter_cons, hdrops, hmake, ih fun other ho => h other (List.mem_cons_of_mem _ ho)]
    simp

theorem heldAfter_callsAbout (hmakes : ∀ item, makes item = true → item.pod = pod)
    (calls : List (Call Pod)) (held : Bool) :
    heldAfter makes pod (calls.flatMap Pod.work) held =
      heldAfter makes pod ((callsAbout pod calls).flatMap Pod.work) held := by
  induction calls generalizing held with
  | nil => rfl
  | cons c calls ih =>
    rw [List.flatMap_cons, heldAfter_append, ih]
    by_cases hk : c.key = pod
    · simp [callsAbout, hk, heldAfter_append]
    · have hothers : ∀ item ∈ Pod.work c, item.pod ≠ pod :=
        fun item hi hpod => hk ((Pod.pod_of_mem_work hi).symm.trans hpod)
      rw [heldAfter_of_others hmakes hothers]
      simp [callsAbout, hk]

end Held

/-! ## One pod -/

def Pod.granted (c : ClusterView) (x : Pod) : Bool :=
  x.machine?.any fun machine => (c.grant? machine x.metadata.key).isSome

/-- Whether the pod is to have an entry: a live pod that was kept has what it had before, and any
other live pod has what it is granted. -/
def standing (c : ClusterView) (before kept : Bool) : Option Pod → Bool
  | some x => !x.completed && if kept then before else x.granted c
  | none => false

theorem Pod.granted_iff {c : ClusterView} {x : Pod} {pod : Key} (hk : x.metadata.key = pod) :
    x.granted c = true ↔
      ∃ machine, x.machine? = some machine ∧ (c.grant? machine pod).isSome := by
  subst hk
  cases hm : x.machine? <;> simp [granted, hm]

theorem standing_eq_iff {c : ClusterView} {before held deleted : Bool} {x? : Option Pod} :
    standing c before (held && !deleted) x? = standing c before held x? ↔
      ∀ x, x? = some x → x.completed = false → held = true → deleted = true →
        (before = true ↔ x.granted c = true) := by
  cases x? with
  | none => simp [standing]
  | some x =>
    rw [Bool.eq_iff_iff]
    by_cases h : x.completed = false ∧ held = true ∧ deleted = true
    · obtain ⟨hx, rfl, rfl⟩ := h
      simp [standing, hx, iff_comm]
    · cases hx : x.completed <;> cases held <;> cases deleted <;> simp_all [standing]

theorem standing_before {c : ClusterView} {before : Bool} {old : Option Pod}
    (hbefore : before = true → ∃ o, old = some o ∧ o.completed = false) :
    standing c before old.isSome old = before := by
  cases hb : before with
  | false => cases old <;> simp [standing]
  | true =>
    obtain ⟨o, rfl, ho⟩ := hbefore hb
    simp [standing, ho]

theorem standing_of_not_live {c : ClusterView} {before kept : Bool} {pod : Key}
    (h : c.podIsLive pod = false) (c' : ClusterView) :
    standing c' before kept (c.pods.get? pod) = false := by
  unfold ClusterView.podIsLive at h
  cases hx : c.pods.get? pod with
  | none => rfl
  | some x =>
    rw [hx] at h
    simp [standing, h]

namespace Pod

variable {c : ClusterView} {pod : Key}

theorem heldAfter_add {x : Pod} (hk : x.metadata.key = pod) (held : Bool) :
    heldAfter (·.reserves c pod) pod (work (.add x)) held =
      (held || (!x.completed && x.granted c)) := by
  subst hk
  cases hx : x.completed with
  | true => simp [work, hx, heldAfter]
  | false =>
    cases hm : x.machineName? with
    | none => simp [work, hx, hm, heldAfter, granted, machine?]
    | some name =>
      simp [work, hx, hm, heldAfter, granted, machine?, WorkItem.podStartedFor, WorkItem.drops,
        WorkItem.reserves]

theorem drops_release (p : Pod) : p.release.drops p.metadata.key = true := by
  unfold release
  split <;> exact decide_eq_true rfl

theorem heldAfter_update {old new : Pod} (hk : new.metadata.key = pod) (held : Bool) :
    heldAfter (·.reserves c pod) pod (work (.update old new)) held =
      (held && (old.completed || !new.completed)) := by
  subst hk
  cases ho : old.completed <;> cases hn : new.completed <;>
    simp [work, Completion.onUpdate, ho, hn, heldAfter, drops_release]

theorem heldAfter_delete {p : Pod} (hk : p.metadata.key = pod) (stale held : Bool) :
    heldAfter (·.reserves c pod) pod (work (.delete p stale)) held = (held && p.completed) := by
  subst hk
  cases hp : p.completed <;> simp [work, Completion.onDelete, hp, heldAfter, drops_release]

end Pod

/-! ## One input -/

def WatchEvent.put? {α : Type} : WatchEvent α → Option α
  | .added x | .modified x => some x
  | _ => none

def Input.deletes (pod : Key) : Input Pod → Bool
  | .received (.ok (.deleted p)) => key p = pod
  | _ => false

/-- An event of a stream that, as long as the pod stays, neither undoes its end nor changes the
machine that it names. -/
structure Input.Streams (pod : Key) (c : Collection Pod) (i : Input Pod) : Prop
    extends Truthful c i where
  event : ∃ e, i = .received (.ok e)
  lasting : ∀ e x o, i = .received (.ok e) → e.put? = some x → key x = pod →
    c.objects.get? pod = some o →
    (o.completed = true → x.completed = true) ∧ x.machine? = o.machine?

namespace Input

variable {c : Collection Pod} {i : Input Pod} {view : ClusterView} {pod : Key}
  {before kept : Bool}

def leaves (view : ClusterView) (pod : Key) (i : Input Pod) (old : Option Pod) (held : Bool) :
    Bool :=
  heldAfter (·.reserves view pod) pod ((i.changeAt pod old).2.flatMap Pod.work) held

theorem leaves_of_call {call : Call Pod} {old : Option Pod}
    (h : (i.changeAt pod old).2 = [call]) :
    i.leaves view pod old held = heldAfter (·.reserves view pod) pod (Pod.work call) held := by
  rw [leaves, h, List.flatMap_singleton]

theorem changeAt_put {e : WatchEvent Pod} {x : Pod} (he : e.put? = some x) (hk : key x = pod)
    (old : Option Pod) :
    (changeAt pod (.received (.ok e)) old).1 = some x ∧
      ∃ call, (changeAt pod (.received (.ok e)) old).2 = [call] ∧
        ((old = none ∧ call = .add x) ∨ ∃ o, old = some o ∧ call = .update o x) := by
  cases e <;> cases he <;> cases old <;> simp [changeAt, hk]

theorem changeAt_of_other {e : WatchEvent Pod}
    (h : ∀ x ∈ (received (.ok e)).objects, key x ≠ pod) (old : Option Pod) :
    changeAt pod (.received (.ok e)) old = (old, []) := by
  cases e with
  | added x | modified x | deleted x => exact if_neg (h x (List.mem_singleton_self x))
  | bookmark v => rfl

theorem leaves_added {x : Pod} (h : (i.changeAt pod none).2 = [.add x]) (hk : key x = pod) :
    i.leaves view pod none false = standing view before false (some x) := by
  rw [leaves_of_call h, Pod.heldAfter_add hk]
  simp [standing]

theorem leaves_updated {o x : Pod} (h : (i.changeAt pod (some o)).2 = [.update o x])
    (hk : key x = pod) (hgranted : kept = true ∨ x.granted view = o.granted view)
    (hlive : standing view before kept (some x) = true → o.completed = false) :
    i.leaves view pod (some o) (standing view before kept (some o)) =
      standing view before kept (some x) := by
  rw [leaves_of_call h, Pod.heldAfter_update hk]
  cases ho : o.completed with
  | true =>
    have hnone : standing view before kept (some x) = false := by
      rw [Bool.eq_false_iff]
      intro hx
      rw [hlive hx] at ho
      cases ho
    rw [hnone]
    simp [standing, ho]
  | false =>
    rcases hgranted with rfl | hgranted
    · simp [standing, ho, Bool.and_comm]
    · simp [standing, ho, hgranted, Bool.and_comm]

theorem leaves_deleted {p : Pod} {stale : Bool} {old : Option Pod}
    (h : (i.changeAt pod old).2 = [.delete p stale]) (hk : key p = pod)
    (phase : ∀ o, old = some o → p.completed = o.completed) :
    i.leaves view pod old (standing view before kept old) = false := by
  rw [leaves_of_call h, Pod.heldAfter_delete hk]
  cases old with
  | none => rfl
  | some o => cases hp : o.completed <;> simp [standing, phase o rfl, hp]

theorem leaves_put {e : WatchEvent Pod} {x : Pod} {old : Option Pod} (he : e.put? = some x)
    (hk : key x = pod) (own : ∀ o, old = some o → key o = pod)
    (lasting : ∀ o, old = some o →
      (o.completed = true → x.completed = true) ∧ x.machine? = o.machine?)
    (hkept : kept = true → old.isSome) :
    leaves view pod (.received (.ok e)) old (standing view before kept old) =
      standing view before kept (some x) := by
  obtain ⟨-, call, hcalls, ⟨rfl, rfl⟩ | ⟨o, rfl, rfl⟩⟩ := changeAt_put he hk old
  · have hnew : kept = false := by
      rw [Bool.eq_false_iff]
      intro h
      cases hkept h
    subst hnew
    exact leaves_added hcalls hk
  · obtain ⟨hcompleted, hmachine⟩ := lasting o rfl
    have hkeys : x.metadata.key = o.metadata.key := hk.trans (own o rfl).symm
    refine leaves_updated hcalls hk (.inr ?_) ?_
    · rw [Pod.granted, Pod.granted, hmachine, hkeys]
    · intro hx
      rw [Bool.eq_false_iff]
      intro ho
      simp [standing, hcompleted ho] at hx

theorem leaves_of_streams (own : c.WellKeyed) (streams : i.Streams pod c)
    (hkept : kept = true → (c.objects.get? pod).isSome) :
    i.leaves view pod (c.objects.get? pod) (standing view before kept (c.objects.get? pod)) =
        standing view before (kept && !i.deletes pod) (i.changeAt pod (c.objects.get? pod)).1 ∧
      ((kept && !i.deletes pod) = true → (i.changeAt pod (c.objects.get? pod)).1.isSome) := by
  obtain ⟨e, rfl⟩ := streams.event
  by_cases hother : ∀ x ∈ (received (.ok e)).objects, key x ≠ pod
  · have hstays : deletes pod (.received (.ok e)) = false := by
      cases e with
      | deleted p => exact decide_eq_false (hother p (List.mem_singleton_self p))
      | added x | modified x | bookmark v => rfl
    rw [leaves, changeAt_of_other hother, hstays, Bool.not_false, Bool.and_true]
    exact ⟨rfl, hkept⟩
  · have hput {x : Pod} (he : e.put? = some x) (hk : key x = pod)
        (hstays : deletes pod (.received (.ok e)) = false) :
        leaves view pod (.received (.ok e)) (c.objects.get? pod)
            (standing view before kept (c.objects.get? pod)) =
          standing view before (kept && !deletes pod (.received (.ok e)))
            (changeAt pod (.received (.ok e)) (c.objects.get? pod)).1 ∧
          ((kept && !deletes pod (.received (.ok e))) = true →
            (changeAt pod (.received (.ok e)) (c.objects.get? pod)).1.isSome) := by
      rw [(changeAt_put he hk _).1, hstays, Bool.not_false, Bool.and_true]
      exact ⟨leaves_put he hk (own pod) (fun o ho => streams.lasting e x o rfl he hk ho) hkept,
        fun _ => rfl⟩
    obtain ⟨x, hx, hk⟩ : ∃ x ∈ (received (.ok e)).objects, key x = pod := by simpa using hother
    cases e with
    | added y | modified y =>
      obtain rfl := List.mem_singleton.1 hx
      exact hput rfl hk rfl
    | bookmark v => cases hx
    | deleted p =>
      obtain rfl := List.mem_singleton.1 hx
      have hchange : changeAt pod (.received (.ok (.deleted x))) (c.objects.get? pod) =
          (none, [.delete x false]) := if_pos hk
      have hleft : leaves view pod (.received (.ok (.deleted x))) (c.objects.get? pod)
          (standing view before kept (c.objects.get? pod)) = false :=
        leaves_deleted (congrArg Prod.snd hchange) hk fun o ho => streams.phase x o rfl (hk ▸ ho)
      rw [hleft, hchange]
      simp [standing, deletes, hk]

theorem leaves_of_list {l : Listing Pod} {old : Option Pod}
    (own : ∀ o, old = some o → key o = pod)
    (same : ∀ x ∈ l.items, ∀ o, old = some o → key x = pod → version o = version x → o = x)
    (hbefore : before = true → ∃ o, old = some o ∧ o.completed = false) :
    leaves view pod (.listed (.ok l)) old before =
      standing view before old.isSome (changeAt pod (.listed (.ok l)) old).1 := by
  have hstands : standing view before old.isSome old = before := standing_before hbefore
  have heffect := effect_listed pod l old
  generalize hr : changeAt pod (.listed (.ok l)) old = r at heffect
  have hcalls := congrArg Prod.snd hr
  cases heffect with
  | add hx hk hnone =>
    subst hnone
    rw [← hstands]
    exact leaves_added hcalls hk
  | @update o x hx hk hsome =>
    subst hsome
    -- Whatever happened in between, the pod counts as kept, and its label does not matter.
    have hleft : leaves view pod (.listed (.ok l)) (some o) (standing view before true (some o)) =
        standing view before true (some x) := by
      refine leaves_updated hcalls hk (.inl rfl) fun hx => ?_
      obtain ⟨-, hb⟩ : x.completed = false ∧ before = true := by simpa [standing] using hx
      obtain ⟨_, ⟨⟩, hlive⟩ := hbefore hb
      exact hlive
    have hkept : standing view before true (some o) = before := hstands
    rwa [hkept] at hleft
  | same hx hk hsome hv =>
    obtain rfl := same _ hx _ hsome hk hv
    rw [← hsome, hstands, leaves, hr]
    rfl
  | @missing l' o hlist hlost hsome =>
    subst hsome
    have phase : ∀ o', some o = some o' → o.completed = o'.completed := by
      rintro _ ⟨⟩
      rfl
    have hleft : leaves view pod (.listed (.ok l)) (some o) (standing view before true (some o)) =
        false := leaves_deleted hcalls (own o rfl) phase
    have hkept : standing view before true (some o) = before := hstands
    rwa [hkept] at hleft
  | deleted hevent hk => cases hevent
  | untouched =>
    rw [hstands, leaves, hr]
    rfl

end Input

end BufferLedger
