import BufferLedger.Proofs.EngineRun
import BufferLedger.Proofs.ServerHistory

/-!
# The collection is that of the server

A watch against a server with a history. The server lists its collection at some version, and a
stream tells what came after the version from which it was asked for, one change after the other;
lists fail, and streams fail, close and expire, at any moment. Whatever happens, once a list has
been applied the collection is the server's at the collection's version (`mirrors_server`). What
makes it so is that a stream is always asked for from the version of the collection, and that its
position is that version as long as it is read.
-/

namespace BufferLedger

/-- What passes between a watch and its server: the version from which a stream was asked for
last, how far the stream has come, the version of the last list and the changes told since. -/
structure Channel (ν α : Type) where
  asked : Option String
  position : Option ν
  base : Option ν
  told : List (Change ν α)

def Output.asked? {α : Type} : Output α → Option String
  | .watch version => some version
  | _ => none

theorem asked_calls {α : Type} (calls : List (Call α)) :
    (calls.map Output.call).findSome? Output.asked? = none := by
  rw [List.findSome?_eq_none_iff]
  intro o ho
  obtain ⟨c, -, rfl⟩ := List.mem_map.1 ho
  rfl

namespace Channel

variable {ν α : Type}

def idle : Channel ν α := ⟨none, none, none, []⟩

def hear (ch : Channel ν α) (outputs : List (Output α)) : Channel ν α :=
  { ch with asked := (outputs.findSome? Output.asked?).or ch.asked }

end Channel

inductive WatchEvent.Tells {ν α : Type} : WatchEvent α → Change ν α → Prop
  | added {v x} : Tells (.added x) ⟨v, x, false⟩
  | modified {v x} : Tells (.modified x) ⟨v, x, false⟩
  | deleted {v x} : Tells (.deleted x) ⟨v, x, true⟩

section Tells

variable {ν α : Type} [ClusterObject α] {e : WatchEvent α} {c : Change ν α}

theorem WatchEvent.Tells.objects (h : e.Tells c) (collection : Collection α) :
    (collection.observe e).1.objects = c.applyTo collection.objects := by
  cases h <;> rfl

theorem WatchEvent.Tells.version {version : String} (h : e.Tells c)
    (hstamp : ClusterObject.version c.object = some version) (collection : Collection α) :
    (collection.observe e).1.version = version := by
  have hafter : (collection.observe e).1.version = collection.versionAfter c.object := by
    cases h <;> rfl
  rw [hafter, Collection.versionAfter, hstamp, Option.getD_some]

end Tells

def Input.own {α : Type} : Input α → Bool
  | .elapsed | .cancel | .noticeCancel | .request _ | .noticeRequest => true
  | _ => false

def Phase.listens : Phase → Bool
  | .opening | .reading => true
  | _ => false

namespace Server

variable {ν α : Type} [LT ν] [DecidableLT ν] [ClusterObject α]

inductive Answers (srv : Server ν α) (ch : Channel ν α) : Input α → Channel ν α → Prop
  | listed {v l} : srv.Lists v l →
      Answers srv ch (.listed (.ok l)) { ch with base := some v, told := [] }
  | listFailed {e} : Answers srv ch (.listed (.error e)) ch
  | opened {v} : ch.asked = some (srv.text v) →
      Answers srv ch (.opened (.ok ())) { ch with position := some v }
  | openFailed {e} : Answers srv ch (.opened (.error e)) ch
  | told {v c e} : ch.position = some v → srv.next? v = some c → e.Tells c →
      Answers srv ch (.received (.ok e))
        { ch with position := some c.version, told := ch.told ++ [c] }
  | bookmark {v b} : ch.position = some v → srv.upTo b = srv.upTo v →
      Answers srv ch (.received (.ok (.bookmark (srv.text b)))) { ch with position := some b }
  | streamFailed {e} : Answers srv ch (.received (.error e)) ch
  | closed : Answers srv ch .closed ch
  | own {i} : i.own = true → Answers srv ch i ch

inductive Session (srv : Server ν α) (config : WatchConfig) (mode : StartMode) :
    Engine α → Channel ν α → Prop
  | start : Session srv config mode (Engine.start config mode).1 .idle
  | step {w ch i ch' w' outputs} : Session srv config mode w ch → srv.Answers ch i ch' →
      w.step i = some (w', outputs) → Session srv config mode w' (ch'.hear outputs)

/-- The collection is the server's at a version, and the changes told since the last list are
those from the list's version to this one. -/
structure Mirrored (srv : Server ν α) (c : Collection α) (ch : Channel ν α) (v : ν) : Prop where
  version : c.version = srv.text v
  objects : c.objects = srv.stateAt v
  complete : ∃ base, ch.base = some base ∧ srv.upTo v = srv.upTo base ++ ch.told

structure Follows (srv : Server ν α) (w : Engine α) (ch : Channel ν α) : Prop where
  mirrored : w.synced = true →
    ∃ v, srv.Mirrored w.collection ch v ∧ (w.phase = .reading → ch.position = some v)
  asked : w.phase = .opening → ch.asked = some w.collection.version

variable {srv : Server ν α} {w w' : Engine α} {ch : Channel ν α}

/-! ## The collection after a list or an event -/

theorem stamped_next {v : ν} {c : Change ν α} (h : srv.next? v = some c) :
    ClusterObject.version c.object = some (srv.text c.version) :=
  srv.stamped c (List.mem_of_find?_eq_some h)

theorem Mirrored.observe [TotalOrder ν] {v : ν} {c : Change ν α} {e : WatchEvent α}
    {collection : Collection α} {position : Option ν} (h : srv.Mirrored collection ch v)
    (hnext : srv.next? v = some c) (htells : e.Tells c) :
    srv.Mirrored (collection.observe e).1 { ch with position, told := ch.told ++ [c] }
      c.version := by
  refine ⟨htells.version (stamped_next hnext) collection, ?_, ?_⟩
  · rw [htells.objects, h.objects, stateAt_next hnext]
  · obtain ⟨base, hbase, hupTo⟩ := h.complete
    refine ⟨base, hbase, ?_⟩
    rw [upTo_next hnext, hupTo, List.append_assoc]

theorem Mirrored.bookmark {v b : ν} {collection : Collection α} {position : Option ν}
    (h : srv.Mirrored collection ch v) (hsame : srv.upTo b = srv.upTo v) :
    srv.Mirrored (collection.observe (.bookmark (srv.text b))).1 { ch with position } b := by
  refine ⟨rfl, ?_, ?_⟩
  · have hstate : srv.stateAt b = srv.stateAt v := by rw [stateAt, hsame, stateAt]
    rw [hstate]
    exact h.objects
  · obtain ⟨base, hbase, hupTo⟩ := h.complete
    exact ⟨base, hbase, hsame.trans hupTo⟩

theorem mirrored_replace {v : ν} {l : Listing α} (h : srv.Lists v l) (collection : Collection α) :
    srv.Mirrored (collection.replace l).1 { ch with base := some v, told := [] } v :=
  ⟨version_of_lists h collection, objects_of_lists h collection, v, rfl, (List.append_nil _).symm⟩

theorem Mirrored.hear {v : ν} {collection : Collection α} (h : srv.Mirrored collection ch v)
    (outputs : List (Output α)) : srv.Mirrored collection (ch.hear outputs) v :=
  ⟨h.version, h.objects, h.complete⟩

/-! ## One step -/

theorem Follows.hear (h : srv.Follows w ch) {outputs : List (Output α)}
    (hnone : outputs.findSome? Output.asked? = none) : srv.Follows w (ch.hear outputs) := by
  have hsame : ch.hear outputs = ch := by rw [Channel.hear, hnone, Option.none_or]
  rw [hsame]
  exact h

theorem Follows.leave (h : srv.Follows w ch) (hcollection : w'.collection = w.collection)
    (hsynced : w'.synced = w.synced) (hphase : w'.phase.listens = false)
    (outputs : List (Output α)) : srv.Follows w' (ch.hear outputs) := by
  have hleft {p : Phase} (hp : p.listens = true) : w'.phase ≠ p := by
    rintro rfl
    rw [hphase] at hp
    cases hp
  refine ⟨?_, fun ho => absurd ho (hleft rfl)⟩
  intro hs
  obtain ⟨v, hv, -⟩ := h.mirrored (hsynced ▸ hs)
  rw [hcollection]
  exact ⟨v, hv.hear outputs, fun hr => absurd hr (hleft rfl)⟩

theorem Follows.waitForWatch (h : srv.Follows w ch) :
    srv.Follows w.waitForWatch.1 (ch.hear w.waitForWatch.2) :=
  h.leave (by rfl) (by rfl) (by rfl) _

theorem Follows.openWatch (h : srv.Follows w ch) :
    srv.Follows w.openWatch.1 (ch.hear w.openWatch.2) := by
  refine ⟨?_, fun _ => rfl⟩
  intro hs
  obtain ⟨v, hv, -⟩ := h.mirrored hs
  exact ⟨v, hv.hear _, fun hr => Phase.noConfusion hr⟩

theorem asked_listSucceeded (w : Engine α) (p : Purpose) (l : Listing α) :
    (w.listSucceeded p l).2.findSome? Output.asked? =
      some (w.collection.replace l).1.version := by
  have hcalls := asked_calls (w.collection.replace l).2
  have hanswers : (Engine.listOutputs p : List (Output α)).findSome? Output.asked? = none := by
    cases p with
    | start attempt => rfl
    | sync => rfl
    | relist r => cases r <;> rfl
  simp only [Engine.listSucceeded, Engine.openWatch, List.findSome?_append, hcalls, hanswers]
  rfl

theorem Follows.listSucceeded {v : ν} {p : Purpose} {l : Listing α} (h : srv.Lists v l) :
    srv.Follows (w.listSucceeded p l).1
      (Channel.hear { ch with base := some v, told := [] } (w.listSucceeded p l).2) := by
  refine ⟨?_, ?_⟩
  · intro _
    exact ⟨v, (mirrored_replace h w.collection).hear _, fun hr => Phase.noConfusion hr⟩
  · intro _
    rw [Channel.hear, asked_listSucceeded]
    rfl

theorem Follows.opened {v : ν} (h : srv.Follows w ch) (hw : w.Flagged)
    (hphase : w.phase = .opening) (hasked : ch.asked = some (srv.text v)) :
    srv.Follows { w with phase := .reading, failing := false } { ch with position := some v } := by
  have hs := hw.synced (hphase ▸ rfl)
  refine ⟨?_, fun ho => Phase.noConfusion ho⟩
  intro _
  obtain ⟨u, hu, -⟩ := h.mirrored hs
  -- The stream was asked for from the version of the collection.
  have hversion : srv.text v = srv.text u := by
    rw [← hu.version]
    exact Option.some.inj (hasked.symm.trans (h.asked hphase))
  obtain rfl := srv.text_injective hversion
  exact ⟨v, ⟨hu.version, hu.objects, hu.complete⟩, fun _ => rfl⟩

theorem Follows.received [TotalOrder ν] {e : WatchEvent α} {ch' : Channel ν α}
    (h : srv.Follows w ch) (hw : w.Flagged) (hphase : w.phase = .reading)
    (hanswer : srv.Answers ch (.received (.ok e)) ch') :
    srv.Follows { w with collection := (w.collection.observe e).1 } ch' := by
  have hs := hw.synced (hphase ▸ rfl)
  have hopening : w.phase ≠ .opening := fun ho => Phase.noConfusion (ho.symm.trans hphase)
  obtain ⟨u, hu, hposition⟩ := h.mirrored hs
  suffices hread : ∃ v, srv.Mirrored (w.collection.observe e).1 ch' v ∧ ch'.position = some v by
    obtain ⟨v, hv, hposition⟩ := hread
    exact ⟨fun _ => ⟨v, hv, fun _ => hposition⟩, fun ho => absurd ho hopening⟩
  cases hanswer with
  | told hat hnext htells =>
    obtain rfl := Option.some.inj (hat.symm.trans (hposition hphase))
    exact ⟨_, hu.observe hnext htells, rfl⟩
  | bookmark hat hsame =>
    obtain rfl := Option.some.inj (hat.symm.trans (hposition hphase))
    exact ⟨_, hu.bookmark hsame, rfl⟩
  | own hown => cases hown

theorem Follows.listFailed (h : srv.Follows w ch) (p : Purpose) :
    srv.Follows (w.listFailed p).1 (ch.hear (w.listFailed p).2) := by
  cases p with
  | start attempt =>
    simp only [Engine.listFailed]
    split <;> exact h.leave (by rfl) (by rfl) (by rfl) _
  | sync | relist r => exact h.leave (by rfl) (by rfl) (by rfl) _

theorem Follows.watchFailed (h : srv.Follows w ch) (e : WatchError) :
    srv.Follows (w.watchFailed e).1 (ch.hear (w.watchFailed e).2) := by
  unfold Engine.watchFailed
  split <;> exact h.leave (by rfl) (by rfl) (by rfl) _

theorem Answers.channel_eq {i : Input α} {ch' : Channel ν α} (h : srv.Answers ch i ch')
    (hown : i.own = true) : ch' = ch := by
  cases h with
  | own _ => rfl
  | listFailed => rfl
  | openFailed => rfl
  | streamFailed => rfl
  | closed => rfl
  | listed => cases hown
  | opened => cases hown
  | told => cases hown
  | bookmark => cases hown

theorem Follows.move [TotalOrder ν] {i : Input α} {s : Engine.Step α} {ch' : Channel ν α}
    (h : srv.Follows w ch) (hw : w.Flagged) (hanswer : srv.Answers ch i ch')
    (hmove : Engine.Move w i s) : srv.Follows s.1 (ch'.hear s.2) := by
  cases hmove with
  | cancel | lateRequest hfinished | request hrunning =>
    obtain rfl := hanswer.channel_eq rfl
    exact ⟨h.mirrored, h.asked⟩
  | noticeCancel hc hrunning =>
    obtain rfl := hanswer.channel_eq rfl
    have hlast := Engine.fst_finishCancelled w
    exact h.leave (by rw [hlast]) (by rw [hlast]) (by rw [hlast]; rfl) _
  | noticeRequest hreading hc hr =>
    obtain rfl := hanswer.channel_eq rfl
    exact h.leave (by rfl) (by rfl) (by rfl) _
  | listAgain hwaiting =>
    obtain rfl := hanswer.channel_eq rfl
    exact h.leave (by rfl) (by rfl) (by rfl) _
  | watchAgain hwaiting =>
    obtain rfl := hanswer.channel_eq rfl
    exact h.openWatch
  | listed hlisting =>
    cases hanswer with
    | listed hlists => exact Follows.listSucceeded hlists
    | own hown => cases hown
  | listFailed hlisting =>
    cases hanswer with
    | listFailed => exact h.listFailed _
    | own hown => cases hown
  | opened hopening =>
    cases hanswer with
    | opened hasked => exact (h.opened hw hopening hasked).hear rfl
    | own hown => cases hown
  | openFailed hopening =>
    cases hanswer with
    | openFailed => exact h.watchFailed _
    | own hown => cases hown
  | received hreading hc hr => exact (h.received hw hreading hanswer).hear (asked_calls _)
  | streamFailed hreading hc hr =>
    cases hanswer with
    | streamFailed => exact h.watchFailed _
    | own hown => cases hown
  | closed hreading hc hr =>
    cases hanswer with
    | closed => exact h.waitForWatch
    | own hown => cases hown

/-! ## Runs -/

variable {config : WatchConfig} {mode : StartMode}

theorem Session.flagged (session : srv.Session config mode w ch) : w.Flagged := by
  induction session with
  | start => exact Engine.flagged_start config mode
  | step _ _ hstep ih => exact Engine.flagged_of_move (Engine.move_of_step hstep) ih

theorem Session.follows [TotalOrder ν] (session : srv.Session config mode w ch) :
    srv.Follows w ch := by
  induction session with
  | start => constructor <;> cases mode <;> exact nofun
  | step session hanswer hstep ih =>
    exact ih.move session.flagged hanswer (Engine.move_of_step hstep)

/-- Once a list has been applied, the objects are the server's at the version that the collection
has, and the changes told since the last list are all that came after the list. -/
theorem mirrors_server [TotalOrder ν] (session : srv.Session config mode w ch)
    (synced : w.synced = true) :
    ∃ v base, w.collection.version = srv.text v ∧ w.collection.objects = srv.stateAt v ∧
      ch.base = some base ∧ srv.upTo v = srv.upTo base ++ ch.told := by
  obtain ⟨v, hv, -⟩ := session.follows.mirrored synced
  obtain ⟨base, hbase, hupTo⟩ := hv.complete
  exact ⟨v, base, hv.version, hv.objects, hbase, hupTo⟩

def sample : Server String Pod where
  history :=
    [⟨"1", .sample "a" "1" "Running", false⟩, ⟨"2", .sample "b" "2" "Running", false⟩,
     ⟨"3", .sample "a" "3" "Running", true⟩]
  text := id
  ascending := by decide
  text_injective := id
  stamped := by simp [Pod.sample, ClusterObject.version, ClusterObject.metadata]

theorem mirrors_server_sample :
    ∃ w ch, sample.Session (.standard "pods") .waiting w ch ∧ w.synced = true ∧
      w.collection.version = "3" ∧
      ∃ v base, w.collection.version = v ∧ w.collection.objects = sample.stateAt v ∧
        ch.base = some base ∧ sample.upTo v = sample.upTo base ++ ch.told := by
  have fresh : sample.Session (.standard "pods") .waiting _ _ := .start
  have listed := fresh.step (.listed (v := "1") (l := ⟨some "1", [.sample "a" "1" "Running"]⟩)
    ⟨rfl, .refl _⟩) rfl
  have opened := listed.step (.opened (v := "1") rfl) rfl
  have told := opened.step (.told rfl rfl .modified) rfl
  have closed := told.step .closed rfl
  have again := closed.step (.own (i := .elapsed) rfl) rfl
  have reopened := again.step (.opened (v := "2") rfl) rfl
  have removed := reopened.step (.told rfl rfl .deleted) rfl
  exact ⟨_, _, removed, rfl, rfl, mirrors_server removed rfl⟩

end Server

end BufferLedger
