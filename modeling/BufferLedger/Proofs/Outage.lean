import BufferLedger.Proofs.ServerHistory
import BufferLedger.Proofs.Standing

/-!
# A list instead of the lost stream

While the machines stay, what stands for a pod is promised at any time, whenever the reconciler
works. A stream of events and a list of what they lead to end with the same pods and should leave
entries for the same ones. But a list is told as a difference by key, and no call tells a pod that
was deleted and made anew from one that stayed. So the start of a pod is lost whose predecessor had
completed: a watched deletion and addition report it, and the list does not. `relist_agrees_iff`
says for which pods the two agree, and `relist_disagrees` has outages in which they do not.
-/

namespace BufferLedger

open ClusterObject (key version)

namespace Pipeline

variable {s s' : Pipeline} {pod : Key} {view : ClusterView} {c c' : Collection Pod}

def promised (pod : Key) (s : Pipeline) : Bool :=
  s.holds (·.reserves s.view pod) pod

theorem promised_write (pod : Key) (s : Pipeline) : s.write.promised pod = s.promised pod := by
  rw [promised, write_view, holds_write]
  rfl

theorem promised_decideNext (tidy : s.Tidy)
    (h : s.view.podIsLive pod = false → s.promised pod = false) :
    s.decideNext.promised pod = s.promised pod := by
  have hputs : ∀ item ∈ s.queue, (Reconciler.decide s.view item).puts pod =
      (s.view.podIsLive pod && item.reserves s.view pod) := by
    intro item hi
    refine Reconciler.puts_decide tidy.ownKeys ?_
    rintro machine rfl
    exact tidy.inSpace pod machine hi
  rw [promised, decideNext_view]
  cases hlive : s.view.podIsLive pod with
  | true =>
    simp only [hlive, Bool.true_and] at hputs
    exact holds_decideNext_eq hputs
  | false =>
    -- A pod that is not live gets no entry, but it was not promised one.
    rw [h hlive, Bool.eq_false_iff]
    intro hnext
    have hs : s.promised pod = true := by
      refine holds_decideNext (fun item hi hput => ?_) hnext
      rw [hputs item hi, hlive] at hput
      cases hput
    rw [h hlive] at hs
    cases hs

theorem promised_takeIn (pod : Key) (change : Collection Pod × List (Call Pod)) (s : Pipeline) :
    (s.takeIn change).promised pod =
      heldAfter (·.reserves s.view pod) pod (change.2.flatMap Pod.work) (s.promised pod) := by
  have hreserves : (fun item : WorkItem => item.reserves (s.takeIn change).view pod) =
      fun item => item.reserves s.view pod :=
    funext fun item => item.reserves_congr rfl pod
  have hqueue : (s.takeIn change).queue = s.queue ++ change.2.flatMap Pod.work := rfl
  rw [promised, hreserves, holds, hqueue, heldAfter_append]
  rfl

theorem promised_of_drained (hqueue : s.queue = []) (hidle : s.decided = none) :
    s.promised pod = (s.ledger.get? pod).isSome :=
  holds_of_drained _ hqueue hidle

/-! ## The copy and its pipeline -/

theorem Tidy.takeIn (h : s.Tidy) (change : Collection Pod × List (Call Pod)) :
    (s.takeIn change).Tidy := by
  refine ⟨h.ownKeys, ?_⟩
  intro pod machine hi
  rcases List.mem_append.1 hi with hi | hi
  · exact h.inSpace pod machine hi
  · obtain ⟨call, -, hwork⟩ := List.mem_flatMap.1 hi
    exact Pod.space_of_started hwork

/-- The pipeline behind a copy of the pods, while the machines are those of a view. -/
structure Behind (view : ClusterView) (c : Collection Pod) (s : Pipeline) : Prop where
  tidy : s.Tidy
  wellKeyed : c.WellKeyed
  pods : s.view.pods = c.objects
  machines : s.view.machines = view.machines

/-- The copy takes in inputs one by one, and the reconciler works when it likes. -/
inductive Fed (allows : Collection Pod → Input Pod → Prop) (c : Collection Pod) (s : Pipeline) :
    List (Input Pod) → Collection Pod → Pipeline → Prop
  | start : Fed allows c s [] c s
  | input {is c' s' i} : Fed allows c s is c' s' → allows c' i →
      Fed allows c s (is ++ [i]) (i.change c').1 (s'.takeIn (i.change c'))
  | decide {is c' s'} : Fed allows c s is c' s' → Fed allows c s is c' s'.decideNext
  | write {is c' s'} : Fed allows c s is c' s' → Fed allows c s is c' s'.write

theorem Behind.input {i : Input Pod} (behind : Behind view c s) (truthful : i.Truthful c) :
    Behind view (i.change c).1 (s.takeIn (i.change c)) :=
  ⟨behind.tidy.takeIn _, Input.change_wellKeyed behind.wellKeyed truthful.distinct, rfl,
    behind.machines⟩

theorem Behind.decide (behind : Behind view c s) : Behind view c s.decideNext := by
  have hview := s.decideNext_view
  exact ⟨behind.tidy.after .decide, behind.wellKeyed, hview ▸ behind.pods, hview ▸ behind.machines⟩

theorem Behind.write (behind : Behind view c s) : Behind view c s.write := by
  have hview := s.write_view
  exact ⟨behind.tidy.after .write, behind.wellKeyed, hview ▸ behind.pods, hview ▸ behind.machines⟩

theorem Behind.promised_input {i : Input Pod} (behind : Behind view c s)
    (truthful : i.Truthful c) (pod : Key) :
    (s.takeIn (i.change c)).promised pod =
      i.leaves view pod (c.objects.get? pod) (s.promised pod) := by
  have hreserves : (fun item : WorkItem => item.reserves s.view pod) =
      fun item => item.reserves view pod :=
    funext fun item => item.reserves_congr behind.machines pod
  rw [promised_takeIn, hreserves, heldAfter_callsAbout fun item h => WorkItem.pod_of_reserves h,
    (Input.change_at behind.wellKeyed truthful.distinct pod).2]
  rfl

theorem Behind.promised_decide {before kept : Bool} (behind : Behind view c s)
    (h : s.promised pod = standing view before kept (c.objects.get? pod)) :
    s.decideNext.promised pod = standing view before kept (c.objects.get? pod) := by
  rw [promised_decideNext behind.tidy, h]
  intro hlive
  rw [h, ← behind.pods]
  exact standing_of_not_live hlive view

section Runs

variable {allows : Collection Pod → Input Pod → Prop} {is : List (Input Pod)} {i : Input Pod}

theorem Fed.behind (truthful : ∀ c i, allows c i → i.Truthful c) (behind : Behind view c s)
    (fed : Fed allows c s is c' s') : Behind view c' s' := by
  induction fed with
  | start => exact behind
  | input _ hi ih => exact ih.input (truthful _ _ hi)
  | decide _ ih => exact ih.decide
  | write _ ih => exact ih.write

theorem Fed.last (fed : Fed allows c s (is ++ [i]) c' s') :
    ∃ c₀ s₀, Fed allows c s is c₀ s₀ ∧ allows c₀ i ∧
      Fed allows (i.change c₀).1 (s₀.takeIn (i.change c₀)) [] c' s' := by
  generalize hall : is ++ [i] = all at fed
  induction fed with
  | start => simp at hall
  | @input is' c₀ s₀ i' fed hi _ =>
    obtain ⟨rfl, he⟩ := List.append_inj' hall rfl
    cases he
    exact ⟨c₀, s₀, fed, hi, .start⟩
  | decide _ ih =>
    obtain ⟨c₀, s₀, fed, hi, rest⟩ := ih hall
    exact ⟨c₀, s₀, fed, hi, rest.decide⟩
  | write _ ih =>
    obtain ⟨c₀, s₀, fed, hi, rest⟩ := ih hall
    exact ⟨c₀, s₀, fed, hi, rest.write⟩

theorem Fed.idle {before kept : Bool} (truthful : ∀ c i, allows c i → i.Truthful c)
    (behind : Behind view c s)
    (h : s.promised pod = standing view before kept (c.objects.get? pod))
    (fed : Fed allows c s [] c' s') :
    c' = c ∧ s'.promised pod = standing view before kept (c.objects.get? pod) := by
  generalize hnil : ([] : List (Input Pod)) = is at fed
  induction fed with
  | start => exact ⟨rfl, h⟩
  | input _ _ _ => simp at hnil
  | decide fed ih =>
    obtain ⟨rfl, hpromised⟩ := ih hnil
    exact ⟨rfl, (fed.behind truthful behind).promised_decide hpromised⟩
  | write fed ih =>
    obtain ⟨rfl, hpromised⟩ := ih hnil
    exact ⟨rfl, (promised_write ..).trans hpromised⟩

theorem Fed.promised_of_stream {before : Bool} (behind : Behind view c s)
    (hpromised : s.promised pod = before)
    (hbefore : before = true → ∃ o, c.objects.get? pod = some o ∧ o.completed = false)
    (fed : Fed (Input.Streams pod) c s is c' s') :
    s'.promised pod = standing view before
        ((c.objects.get? pod).isSome && !is.any (Input.deletes pod)) (c'.objects.get? pod) ∧
      (((c.objects.get? pod).isSome && !is.any (Input.deletes pod)) = true →
        (c'.objects.get? pod).isSome) := by
  have truthful : ∀ c i, Input.Streams pod c i → i.Truthful c := fun _ _ h => h.toTruthful
  induction fed with
  | start => simp [hpromised, standing_before hbefore]
  | @input is c' s' i fed hi ih =>
    obtain ⟨hstands, hkept⟩ := ih
    have behind' := fed.behind truthful behind
    obtain ⟨hleaves, hkept'⟩ := Input.leaves_of_streams behind'.wellKeyed hi hkept
    have hany : (!(is ++ [i]).any (Input.deletes pod)) =
        (!is.any (Input.deletes pod) && !i.deletes pod) := by
      simp
    rw [behind'.promised_input hi.toTruthful, hstands, hleaves, hany, ← Bool.and_assoc,
      (Input.change_at behind'.wellKeyed hi.distinct pod).1]
    exact ⟨rfl, hkept'⟩
  | decide fed ih => exact ⟨(fed.behind truthful behind).promised_decide ih.1, ih.2⟩
  | write fed ih => exact ⟨(promised_write ..).trans ih.1, ih.2⟩

theorem Fed.promised_of_list {before : Bool} {l : Listing Pod} (behind : Behind view c s)
    (hpromised : s.promised pod = before)
    (hbefore : before = true → ∃ o, c.objects.get? pod = some o ∧ o.completed = false)
    (fed : Fed Input.Truthful c s [.listed (.ok l)] c' s') :
    c' = (c.replace l).1 ∧
      s'.promised pod =
        standing view before (c.objects.get? pod).isSome (c'.objects.get? pod) := by
  have fed' : Fed Input.Truthful c s ([] ++ [.listed (.ok l)]) c' s' := fed
  obtain ⟨c₀, s₀, first, hl, rest⟩ := fed'.last
  have hstands : s.promised pod =
      standing view before (c.objects.get? pod).isSome (c.objects.get? pod) :=
    hpromised.trans (standing_before hbefore).symm
  obtain ⟨rfl, hfirst⟩ := first.idle (fun _ _ h => h) behind hstands
  have behind₀ := first.behind (fun _ _ h => h) behind
  have hleaves := behind₀.promised_input hl pod
  rw [hfirst, standing_before hbefore,
    Input.leaves_of_list (behind.wellKeyed pod)
      (fun x hx o ho hk hv => hl.same l rfl x hx o (hk ▸ ho) hv) hbefore,
    ← (Input.change_at behind.wellKeyed hl.distinct pod).1] at hleaves
  obtain ⟨rfl, hlast⟩ := rest.idle (fun _ _ h => h) (behind₀.input hl) hleaves
  exact ⟨rfl, hlast⟩

end Runs

variable {config : WatchConfig} {mode : StartMode} {w : Engine Pod}

theorem Reached.tidy (reached : Reached config mode w s) : s.Tidy := by
  obtain ⟨events, run⟩ := reached.run
  exact run.tidy

theorem Reached.behind (reached : Reached config mode w s) : Behind s.view w.collection s :=
  ⟨reached.tidy, reached.wellKeyed, reached.pods_eq, rfl⟩

/-- After a stream and after a list of what it led to there is an entry for the same pods, just
if no pod was deleted and made anew whose entry before is not what its machine grants it. -/
theorem relist_agrees_iff {c₁ c₂ : Collection Pod} {s₁ s₂ : Pipeline} {events : List (Input Pod)}
    {l : Listing Pod} (reached : Reached config mode w s) (hqueue : s.queue = [])
    (hidle : s.decided = none)
    (stream : Fed (Input.Streams pod) w.collection s events c₁ s₁)
    (hqueue₁ : s₁.queue = []) (hidle₁ : s₁.decided = none)
    (lists : l.items.Perm c₁.objects.values)
    (relist : Fed Input.Truthful w.collection s [.listed (.ok l)] c₂ s₂)
    (hqueue₂ : s₂.queue = []) (hidle₂ : s₂.decided = none) :
    ((s₁.ledger.get? pod).isSome ↔ (s₂.ledger.get? pod).isSome) ↔
      ∀ x, c₁.objects.get? pod = some x → x.completed = false →
        (w.collection.objects.get? pod).isSome → (∃ i ∈ events, i.deletes pod = true) →
          ((s.ledger.get? pod).isSome ↔
            ∃ machine, x.machine? = some machine ∧ (s.view.grant? machine pod).isSome) := by
  have behind := reached.behind
  have hbefore : (s.ledger.get? pod).isSome = true →
      ∃ o, w.collection.objects.get? pod = some o ∧ o.completed = false := by
    intro h
    rw [← behind.pods]
    exact podIsLive_iff.1 (reached.live_of_entry hqueue hidle h)
  have hpromised : s.promised pod = (s.ledger.get? pod).isSome := promised_of_drained hqueue hidle
  obtain ⟨hstream, -⟩ := stream.promised_of_stream behind hpromised hbefore
  obtain ⟨rfl, hlist⟩ := relist.promised_of_list behind hpromised hbefore
  have own₁ := (stream.behind (fun _ _ h => h.toTruthful) behind).wellKeyed
  have hsame : (w.collection.replace l).1.objects = c₁.objects :=
    objects_replace own₁ lists
  rw [promised_of_drained hqueue₁ hidle₁] at hstream
  rw [promised_of_drained hqueue₂ hidle₂, hsame] at hlist
  -- The same pod stands on both sides, kept on the one and perhaps not on the other.
  rw [hstream, hlist, ← Bool.eq_iff_iff, standing_eq_iff]
  simp only [List.any_eq_true]
  refine forall_congr' fun x => forall_congr' fun hx => ?_
  rw [Pod.granted_iff (own₁ pod x hx)]

/-! ## Outages that are written out -/

theorem truthful_put {e : WatchEvent Pod} {x : Pod} (he : e.put? = some x) :
    Input.Truthful c (.received (.ok e)) := by
  refine ⟨trivial, ?_, ?_⟩
  · rintro l ⟨⟩
  · rintro p q ⟨⟩
    cases he

theorem truthful_deleted {p q : Pod} (hq : c.objects.get? (key p) = some q)
    (phase : p.completed = q.completed) : Input.Truthful c (.received (.ok (.deleted p))) := by
  refine ⟨trivial, ?_, ?_⟩
  · rintro l ⟨⟩
  · rintro _ r ⟨⟩ hr
    obtain rfl := Option.some.inj (hq.symm.trans hr)
    exact phase

theorem truthful_listed {l : Listing Pod} (distinct : (l.items.map key).Nodup)
    (fresh : ∀ x ∈ l.items, (c.objects.get? (key x)).map version ≠ some (version x)) :
    Input.Truthful c (.listed (.ok l)) := by
  refine ⟨distinct, ?_, ?_⟩
  · rintro _ ⟨⟩ x hx o ho hv
    have hfresh := fresh x hx
    rw [ho, Option.map_some, hv] at hfresh
    exact absurd rfl hfresh
  · rintro p q ⟨⟩

/-- What the watch lists at first, the events that are lost, and the list that comes for them. -/
structure Outage where
  first : List Pod
  lost : List (WatchEvent Pod)
  last : List Pod

namespace Outage

def watch (o : Outage) : Engine Pod :=
  ((Engine.start (.standard "pods") .waiting).1.listSucceeded (.start 1) ⟨some "1", o.first⟩).1

def work (s : Pipeline) : Pipeline :=
  s.decideNext.write.decideNext.write

def outset (o : Outage) : Pipeline :=
  work ((empty.takeIn (Collection.empty.replace ⟨some "1", o.first⟩)).machineCall
    (.add (.sample "vm" "a")))

theorem reached (o : Outage) (distinct : (o.first.map key).Nodup) :
    Reached (.standard "pods") .waiting o.watch o.outset := by
  have truthful : Input.Truthful (.empty : Collection Pod) (.listed (.ok ⟨some "1", o.first⟩)) := by
    refine truthful_listed distinct fun x _ hx => ?_
    cases hx
  have hlisted := Engine.calls_listSucceeded
    (Engine.start (.standard "pods") .waiting : Engine.Step Pod).1 (.start 1) ⟨some "1", o.first⟩
  have listed : Reached (.standard "pods") .waiting o.watch
      (empty.takeIn (Collection.empty.replace ⟨some "1", o.first⟩)) :=
    hlisted ▸ .pods .start rfl truthful
  exact (listed.machines (.add (.sample "vm" "a"))).decide.write.decide.write

end Outage

theorem fed_single {allows : Collection Pod → Input Pod → Prop} {i : Input Pod}
    (hi : allows c i) : Fed allows c s [i] (i.change c).1 (Outage.work (s.takeIn (i.change c))) :=
  (Fed.start.input hi).decide.write.decide.write

theorem fed_pair {allows : Collection Pod → Input Pod → Prop} {i j : Input Pod}
    (hi : allows c i) (hj : allows (i.change c).1 j) :
    Fed allows c s [i, j] (j.change (i.change c).1).1
      (Outage.work ((s.takeIn (i.change c)).takeIn (j.change (i.change c).1))) :=
  ((Fed.start.input hi).input hj).decide.write.decide.write

def remade : Outage :=
  ⟨[.sample "a" "1" "Running"],
   [.deleted (.sample "a" "2" "Running"), .added (.sample "a" "3" "Running")],
   [.sample "a" "3" "Running"]⟩

theorem relist_agrees_on_remade :
    ∃ c₁ s₁ c₂ s₂, Reached (.standard "pods") .waiting remade.watch remade.outset ∧
      Fed (Input.Streams ⟨"default", "a"⟩) remade.watch.collection remade.outset
        (remade.lost.map fun e => .received (.ok e)) c₁ s₁ ∧
      Fed Input.Truthful remade.watch.collection remade.outset
        [.listed (.ok ⟨some "9", remade.last⟩)] c₂ s₂ ∧
      (s₁.ledger.get? ⟨"default", "a"⟩).isSome ∧ (s₂.ledger.get? ⟨"default", "a"⟩).isSome := by
  have reached := remade.reached (by decide)
  have hdeleted : Input.Streams ⟨"default", "a"⟩ remade.watch.collection
      (.received (.ok (.deleted (.sample "a" "2" "Running")))) := by
    refine ⟨truthful_deleted rfl rfl, ⟨_, rfl⟩, ?_⟩
    rintro e x o ⟨⟩ ⟨⟩
  have hadded : Input.Streams ⟨"default", "a"⟩
      (remade.watch.collection.observe (.deleted (.sample "a" "2" "Running"))).1
      (.received (.ok (.added (.sample "a" "3" "Running")))) := by
    refine ⟨truthful_put rfl, ⟨_, rfl⟩, ?_⟩
    rintro e x o - - - ho
    cases ho
  have stream : Fed (Input.Streams ⟨"default", "a"⟩) remade.watch.collection remade.outset
      (remade.lost.map fun e => .received (.ok e)) _ _ := fed_pair hdeleted hadded
  have relist : Fed Input.Truthful remade.watch.collection remade.outset
      [.listed (.ok ⟨some "9", remade.last⟩)] _ _ :=
    fed_single (truthful_listed (by decide) (by decide))
  have hagree := (relist_agrees_iff reached rfl rfl stream rfl rfl (.refl _) relist rfl rfl).2 (by
    rintro x ⟨⟩ - - -
    exact ⟨fun _ => ⟨⟨"default", "vm"⟩, rfl, rfl⟩, fun _ => rfl⟩)
  have hrelist := hagree.1 rfl
  exact ⟨_, _, _, _, reached, stream, relist, rfl, hrelist⟩

def Outage.Disagrees (o : Outage) : Prop :=
  ∃ c₁ s₁ c₂ s₂, Reached (.standard "pods") .waiting o.watch o.outset ∧
    o.outset.queue = [] ∧ o.outset.decided = none ∧
    Fed Input.Truthful o.watch.collection o.outset (o.lost.map fun e => .received (.ok e)) c₁ s₁ ∧
    s₁.queue = [] ∧ s₁.decided = none ∧ o.last.Perm c₁.objects.values ∧
    Fed Input.Truthful o.watch.collection o.outset [.listed (.ok ⟨some "9", o.last⟩)] c₂ s₂ ∧
    s₂.queue = [] ∧ s₂.decided = none ∧
    (s₁.ledger.get? ⟨"default", "a"⟩).isSome ≠ (s₂.ledger.get? ⟨"default", "a"⟩).isSome

def completedRemade : Outage :=
  ⟨[.sample "a" "1" "Succeeded"],
   [.deleted (.sample "a" "2" "Succeeded"), .added (.sample "a" "3" "Running")],
   [.sample "a" "3" "Running"]⟩

def completedForAWhile : Outage :=
  ⟨[.sample "a" "1" "Running"],
   [.modified (.sample "a" "2" "Succeeded"), .modified (.sample "a" "3" "Running")],
   [.sample "a" "3" "Running"]⟩

def labelLost : Outage :=
  ⟨[], [.added (.sample "a" "2" "Running"),
     .modified { Pod.sample "a" "3" "Running" with metadata.labels := none }],
   [{ Pod.sample "a" "3" "Running" with metadata.labels := none }]⟩

theorem relist_disagrees :
    completedRemade.Disagrees ∧ completedForAWhile.Disagrees ∧ labelLost.Disagrees := by
  refine ⟨?_, ?_, ?_⟩
  · exact ⟨_, _, _, _, Outage.reached _ (by decide), rfl, rfl,
      fed_pair (truthful_deleted rfl rfl) (truthful_put rfl), rfl, rfl, .refl _,
      fed_single (truthful_listed (by decide) (by decide)), rfl, rfl, by decide⟩
  · exact ⟨_, _, _, _, Outage.reached _ (by decide), rfl, rfl,
      fed_pair (truthful_put rfl) (truthful_put rfl), rfl, rfl, .refl _,
      fed_single (truthful_listed (by decide) (by decide)), rfl, rfl, by decide⟩
  · exact ⟨_, _, _, _, Outage.reached _ (by decide), rfl, rfl,
      fed_pair (truthful_put rfl) (truthful_put rfl), rfl, rfl, .refl _,
      fed_single (truthful_listed (by decide) (by decide)), rfl, rfl, by decide⟩

end Pipeline

end BufferLedger
