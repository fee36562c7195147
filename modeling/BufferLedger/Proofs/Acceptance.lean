import BufferLedger.Proofs.Narrowing

/-!
# Which machines have a profile

A machine has a profile just if its spec tells both ranges with the use in them and the size of a
memory slot, and if its annotation, where there is one, is an override that the ranges of the spec
enclose (`VirtualMachine.profile_succeeds_iff`). Each reader of the spec is given by when it
succeeds and with what, and the profile puts these together
(`VirtualMachine.specProfile_eq_ok_iff`).
-/

namespace BufferLedger

open Quantity Text

/-- All three amounts are there and can be read, and the use lies in the range: these are the
bounds. -/
structure AmountRange.Gives {β : Type} (read : β → Option Nat) (r : AmountRange β) (b : Bounds) :
    Prop where
  min : r.min.bind read = some b.min
  max : r.max.bind read = some b.max
  use : r.use.bind read = some b.use
  ordered : b.Ordered

/-! ## The readers -/

theorem CpuAmount.milli_eq_some_iff {field : String} {amount : Option CpuAmount} {n : Nat} :
    milli field amount = .ok (some n) ↔ amount.bind milli? = some n := by
  cases amount with
  | none => simp [milli]
  | some a => cases h : a.milli? <;> simp [milli, h]

theorem milliOfCores?_le {x : Binary64} {n : Nat} (h : milliOfCores? x = some n) :
    n ≤ word32Max := by
  unfold milliOfCores? at h
  split at h
  · split at h
    · cases h
      omega
    · cases h
  · cases h

theorem readUpTo?_le {limit n : Nat} {cs : List Char} (h : readUpTo? limit cs = some n) :
    n ≤ limit := by
  simpa using (Option.filter_eq_some_iff.1 h).2

theorem CpuAmount.milli?_le {a : CpuAmount} {n : Nat} (h : a.milli? = some n) : n ≤ word32Max := by
  cases a with
  | cores x => exact milliOfCores?_le h
  | text quantity =>
    simp only [milli?, milliCpu?, readMilli?] at h
    split at h
    · exact readUpTo?_le h
    · obtain ⟨x, -, hx⟩ := Option.bind_eq_some_iff.1 h
      exact milliOfCores?_le hx

theorem bytes?_le {text : String} {n : Nat} (h : bytes? text = some n) : n ≤ word64Max := by
  simp only [bytes?, readBytes?] at h
  split at h
  · split at h
    · cases h
      assumption
    · cases h
  · obtain ⟨x, -, hx⟩ := Option.bind_eq_some_iff.1 h
    obtain ⟨m, -, hm⟩ := Option.bind_eq_some_iff.1 hx
    unfold capBytes? at hm
    split at hm
    · cases hm
      exact Nat.min_le_right ..
    · cases hm

namespace VirtualMachine

variable {v : VirtualMachine} {g : Guest} {b cpu mem : Bounds} {size : Nat} {p q : Profile}

theorem cpuBounds_eq_ok_iff :
    cpuBounds g = .ok b ↔ (g.cpus.getD .empty).Gives CpuAmount.milli? b := by
  simp only [cpuBounds, bind_eq_ok_iff, Bounds.of_eq_ok_iff]
  constructor
  · rintro ⟨_, hmin, _, hmax, _, huse, rfl, rfl, rfl, hordered⟩
    exact ⟨CpuAmount.milli_eq_some_iff.1 hmin, CpuAmount.milli_eq_some_iff.1 hmax,
      CpuAmount.milli_eq_some_iff.1 huse, hordered⟩
  · rintro ⟨hmin, hmax, huse, hordered⟩
    exact ⟨_, CpuAmount.milli_eq_some_iff.2 hmin, _, CpuAmount.milli_eq_some_iff.2 hmax, _,
      CpuAmount.milli_eq_some_iff.2 huse, rfl, rfl, rfl, hordered⟩

theorem memoryBounds_eq_ok_iff :
    memoryBounds g = .ok b ↔ (g.memorySlots.getD .empty).Gives some b := by
  simp only [memoryBounds, Bounds.of_eq_ok_iff]
  constructor
  · rintro ⟨hmin, hmax, huse, hordered⟩
    exact ⟨by simpa using hmin, by simpa using hmax, by simpa using huse, hordered⟩
  · rintro ⟨hmin, hmax, huse, hordered⟩
    exact ⟨by simpa using hmin, by simpa using hmax, by simpa using huse, hordered⟩

theorem slotSize_eq_ok_iff : slotSize g = .ok size ↔ g.memorySlotSize.bind bytes? = some size := by
  cases hsize : g.memorySlotSize with
  | none => simp [slotSize, hsize]
  | some text => cases h : bytes? text <;> simp [slotSize, hsize, h]

/-! ## The spec -/

structure Tells (v : VirtualMachine) (cpu mem : Bounds) (slotSize : Nat) : Prop where
  cpu : (v.guest.cpus.getD .empty).Gives CpuAmount.milli? cpu
  memory : (v.guest.memorySlots.getD .empty).Gives some mem
  slotSize : v.guest.memorySlotSize.bind bytes? = some slotSize

def NoteFits (v : VirtualMachine) (cpu mem : Bounds) : Prop :=
  ∀ text, v.metadata.note? boundsNote = some text → ∃ o, Override.ofText text = .ok o ∧
    cpu.Encloses o.min.cpu o.max.cpu ∧ mem.Encloses o.min.mem o.max.mem

theorem specProfile_eq_ok_iff : v.specProfile = .ok q ↔ v.Tells q.cpu q.mem q.slotSize ∧
    q.name = v.metadata.key.name ∧ q.space = v.metadata.key.space ∧ q.scalable = v.scalable := by
  simp only [specProfile, bind_eq_ok_iff, cpuBounds_eq_ok_iff, memoryBounds_eq_ok_iff,
    slotSize_eq_ok_iff]
  constructor
  · rintro ⟨cpu, hcpu, mem, hmem, size, hsize, ⟨⟩⟩
    exact ⟨⟨hcpu, hmem, hsize⟩, rfl, rfl, rfl⟩
  · rintro ⟨⟨hcpu, hmem, hsize⟩, hname, hspace, hscalable⟩
    refine ⟨_, hcpu, _, hmem, _, hsize, ?_⟩
    rw [← hname, ← hspace, ← hscalable]
    rfl

theorem Tells.within (h : v.Tells cpu mem size) : cpu.max ≤ word32Max ∧ size ≤ word64Max := by
  obtain ⟨a, -, hmax⟩ := Option.bind_eq_some_iff.1 h.cpu.max
  obtain ⟨text, -, hsize⟩ := Option.bind_eq_some_iff.1 h.slotSize
  exact ⟨CpuAmount.milli?_le hmax, bytes?_le hsize⟩

/-! ## The profile -/

structure Narrowed (v : VirtualMachine) (cpu mem : Bounds) (p : Profile) : Prop where
  without : v.metadata.note? boundsNote = none → p.cpu = cpu ∧ p.mem = mem
  noted : ∀ text o, v.metadata.note? boundsNote = some text → Override.ofText text = .ok o →
    p.cpu = cpu.withRange o.min.cpu o.max.cpu ∧ p.mem = mem.withRange o.min.mem o.max.mem

theorem succeeds_of_noteFits (hq : v.specProfile = .ok q) (h : v.NoteFits q.cpu q.mem) :
    Succeeds v.profile := by
  cases hnote : v.metadata.note? boundsNote with
  | none => exact ⟨q, profile_eq_ok_iff.2 ⟨q, hq, .inl ⟨hnote, rfl⟩⟩⟩
  | some text =>
    obtain ⟨o, ho, hcpu, hmem⟩ := h text hnote
    have happly := Profile.apply_of_fits hcpu hmem
    exact ⟨_, profile_eq_ok_iff.2 ⟨q, hq, .inr ⟨text, o, hnote, ho, happly⟩⟩⟩

theorem narrowed_of_profile (h : v.profile = .ok p) :
    ∃ q, v.specProfile = .ok q ∧ v.NoteFits q.cpu q.mem ∧ v.Narrowed q.cpu q.mem p ∧
      p = { q with cpu := p.cpu, mem := p.mem } ∧
      p.cpu.use = q.cpu.use ∧ p.mem.use = q.mem.use := by
  obtain ⟨q, hq, ⟨hnote, rfl⟩ | ⟨text, o, hnote, ho, happly⟩⟩ := profile_eq_ok_iff.1 h
  · refine ⟨p, hq, ?_, ⟨fun _ => ⟨rfl, rfl⟩, ?_⟩, rfl, rfl, rfl⟩
    · intro text htext
      rw [hnote] at htext
      cases htext
    · intro text o htext
      rw [hnote] at htext
      cases htext
  · obtain ⟨hcpu, hmem, rfl⟩ := Profile.eq_of_apply happly
    refine ⟨q, hq, ?_, ⟨?_, ?_⟩, rfl, rfl, rfl⟩
    · intro text' htext
      obtain rfl := Option.some.inj (hnote.symm.trans htext)
      exact ⟨o, ho, hcpu, hmem⟩
    · intro hnone
      rw [hnote] at hnone
      cases hnone
    · intro text' o' htext ho'
      obtain rfl := Option.some.inj (hnote.symm.trans htext)
      obtain rfl := Except.ok.inj (ho.symm.trans ho')
      exact ⟨rfl, rfl⟩

/-- A machine has a profile just if its spec tells both ranges with the use in them and the size of
a memory slot, and its annotation, if there is one, narrows these ranges. The profile has the use,
the slot size, the name and the switch of the machine and the ranges of the annotation, or those of
the spec without one. -/
theorem profile_succeeds_iff (v : VirtualMachine) :
    (Succeeds v.profile ↔
      ∃ cpu mem size, v.Tells cpu mem size ∧ v.NoteFits cpu mem) ∧
    ∀ p, v.profile = .ok p → ∃ cpu mem, v.Tells cpu mem p.slotSize ∧ v.NoteFits cpu mem ∧
      v.Narrowed cpu mem p ∧ p.cpu.use = cpu.use ∧ p.mem.use = mem.use ∧
      p.name = v.metadata.key.name ∧ p.space = v.metadata.key.space ∧ p.scalable = v.scalable ∧
      cpu.max ≤ word32Max ∧ p.slotSize ≤ word64Max := by
  refine ⟨⟨?_, ?_⟩, ?_⟩
  · rintro ⟨p, hp⟩
    obtain ⟨q, hq, hfits, -⟩ := narrowed_of_profile hp
    exact ⟨_, _, _, (specProfile_eq_ok_iff.1 hq).1, hfits⟩
  · rintro ⟨cpu, mem, size, htells, hfits⟩
    have hq : v.specProfile =
        .ok ⟨v.metadata.key.name, v.metadata.key.space, cpu, mem, size, v.scalable⟩ :=
      specProfile_eq_ok_iff.2 ⟨htells, rfl, rfl, rfl⟩
    exact succeeds_of_noteFits hq hfits
  · intro p hp
    obtain ⟨q, hq, hfits, hnarrowed, hsame, hcpu, hmem⟩ := narrowed_of_profile hp
    obtain ⟨htells, hname, hspace, hscalable⟩ := specProfile_eq_ok_iff.1 hq
    rw [hsame]
    exact ⟨q.cpu, q.mem, htells, hfits, hsame ▸ hnarrowed, hcpu, hmem, hname, hspace, hscalable,
      htells.within⟩

theorem profile_succeeds_sample :
    Succeeds (busySample "[[0.5,1],[3,4]]").profile ∧
      ¬ Succeeds (busySample "[[0.5,1],[3,9]]").profile := by
  have hspec (note : String) : (busySample note).specProfile =
      .ok ⟨"vm1", "ns", ⟨250, 4000, 3000⟩, ⟨1, 8, 2⟩, twoTo 30, false⟩ := rfl
  have htells (note : String) := (specProfile_eq_ok_iff.1 (hspec note)).1
  constructor
  · refine (profile_succeeds_iff _).1.2 ⟨_, _, _, htells _, ?_⟩
    rintro text ⟨⟩
    exact ⟨⟨⟨500, 1⟩, ⟨3000, 4⟩⟩, rfl, ⟨by decide, by decide, by decide⟩,
      ⟨by decide, by decide, by decide⟩⟩
  · rw [(profile_succeeds_iff _).1]
    rintro ⟨cpu, mem, size, h, hfits⟩
    obtain ⟨o, ho, -, hmem⟩ := hfits _ rfl
    cases ho
    have hmax : 9 ≤ mem.max := hmem.max_le
    have hslots : 8 = mem.max := Option.some.inj h.memory.max
    omega

end VirtualMachine

end BufferLedger
