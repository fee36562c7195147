import BufferLedger.Ledger
import BufferLedger.Proofs.RecordDecoding
import BufferLedger.Scaling.Extract

/-!
# Narrower ranges

An override takes the place of a range that encloses it and is refused by any other. CPU is
narrowed before memory is looked at, so that an override which only memory refuses leaves its mark
(`Profile.unchanged_if_refused_iff`). Nobody compares a new range with the present use: the use of a
machine lies in its range just if its annotation admits it, and only then do use and buffer add up
to the upper bound (`VirtualMachine.profile_ordered_iff`).
-/

namespace BufferLedger

namespace Bounds

/-- The present use lies in the range. -/
structure Ordered (b : Bounds) : Prop where
  min_le_use : b.min ≤ b.use
  use_le_max : b.use ≤ b.max

/-- A range that is not empty and inside that of the bounds. -/
structure Encloses (b : Bounds) (min max : Nat) : Prop where
  min_le_max : min ≤ max
  le_min : b.min ≤ min
  max_le : max ≤ b.max

def withRange (min max : Nat) (b : Bounds) : Bounds := { b with min, max }

variable {resource : Resource} {b : Bounds} {min max : Nat}

theorem withRange_eq_self_iff : b.withRange min max = b ↔ min = b.min ∧ max = b.max := by
  cases b
  simp [withRange]

theorem require_eq_ok_iff {field : String} {value : Option Nat} {n : Nat} :
    require resource field value = .ok n ↔ value = some n := by
  cases value <;> simp [require]

theorem of_eq_ok_iff {least greatest use : Option Nat} :
    of resource least greatest use = .ok b ↔
      least = some b.min ∧ greatest = some b.max ∧ use = some b.use ∧ b.Ordered := by
  simp only [of, bind_eq_ok_iff, require_eq_ok_iff]
  constructor
  · rintro ⟨lo, rfl, hi, rfl, u, rfl, h⟩
    split at h
    · cases h
    · split at h
      · cases h
      · cases h
        refine ⟨rfl, rfl, rfl, ?_, ?_⟩ <;> dsimp only <;> omega
  · rintro ⟨rfl, rfl, rfl, hmin, hmax⟩
    refine ⟨_, rfl, _, rfl, _, rfl, ?_⟩
    rw [if_neg (by omega), if_neg (by omega)]
    rfl

theorem narrow_of_encloses (h : b.Encloses min max) :
    b.narrow resource min max = .ok (b.withRange min max) := by
  obtain ⟨hrange, hmin, hmax⟩ := h
  rw [narrow, if_neg (by omega), if_neg (by omega)]
  rfl

theorem narrow_of_not_encloses (h : ¬ b.Encloses min max) :
    b.narrow resource min max = .error (if max < min then .minAboveMax resource min max
      else .overrideOutOfBounds resource min max b.min b.max) := by
  unfold narrow
  split
  · rfl
  · rw [if_pos]
    by_contra hinside
    exact h ⟨by omega, by omega, by omega⟩

end Bounds

/-! ## Overrides -/

namespace Override

def FitsCpu (o : Override) (p : Profile) : Prop :=
  p.cpu.Encloses o.min.cpu o.max.cpu

def FitsMemory (o : Override) (p : Profile) : Prop :=
  p.mem.Encloses o.min.mem o.max.mem

/-- The present use lies in the ranges of the override. -/
structure Admits (o : Override) (p : Profile) : Prop where
  cpu : o.min.cpu ≤ p.cpu.use ∧ p.cpu.use ≤ o.max.cpu
  memory : o.min.mem ≤ p.mem.use ∧ p.mem.use ≤ o.max.mem

end Override

namespace Profile

variable {o : Override} {p q : Profile}

def narrowCpu (o : Override) (p : Profile) : Profile :=
  { p with cpu := p.cpu.withRange o.min.cpu o.max.cpu }

def narrowMemory (o : Override) (p : Profile) : Profile :=
  { p with mem := p.mem.withRange o.min.mem o.max.mem }

theorem narrowCpu_eq_self_iff :
    p.narrowCpu o = p ↔ o.min.cpu = p.cpu.min ∧ o.max.cpu = p.cpu.max := by
  rw [← Bounds.withRange_eq_self_iff]
  cases p
  simp [narrowCpu]

theorem apply_of_fits (hcpu : o.FitsCpu p) (hmem : o.FitsMemory p) :
    p.apply o = ((p.narrowCpu o).narrowMemory o, .ok ()) := by
  simp only [apply, Bounds.narrow_of_encloses hcpu, Bounds.narrow_of_encloses hmem]
  rfl

theorem apply_of_not_fitsCpu (hcpu : ¬ o.FitsCpu p) : ∃ e, p.apply o = (p, .error e) := by
  simp only [apply, Bounds.narrow_of_not_encloses hcpu]
  exact ⟨_, rfl⟩

theorem apply_of_not_fitsMemory (hcpu : o.FitsCpu p) (hmem : ¬ o.FitsMemory p) :
    ∃ e, p.apply o = (p.narrowCpu o, .error e) := by
  simp only [apply, Bounds.narrow_of_encloses hcpu, Bounds.narrow_of_not_encloses hmem]
  exact ⟨_, rfl⟩

theorem eq_of_apply (h : p.apply o = (q, .ok ())) :
    o.FitsCpu p ∧ o.FitsMemory p ∧ q = (p.narrowCpu o).narrowMemory o := by
  by_cases hcpu : o.FitsCpu p
  · by_cases hmem : o.FitsMemory p
    · rw [apply_of_fits hcpu hmem] at h
      cases h
      exact ⟨hcpu, hmem, rfl⟩
    · obtain ⟨e, he⟩ := apply_of_not_fitsMemory hcpu hmem
      rw [he] at h
      cases h
  · obtain ⟨e, he⟩ := apply_of_not_fitsCpu hcpu
    rw [he] at h
    cases h

/-- An override that is refused leaves the profile as it was, unless its range of CPU fits and is
another one and its range of memory does not fit; then CPU is narrowed. -/
theorem unchanged_if_refused_iff (o : Override) (p : Profile) :
    ((∀ e, (p.apply o).2 = .error e → (p.apply o).1 = p) ↔
      ¬ (o.FitsCpu p ∧ ¬ o.FitsMemory p ∧
        ¬ (o.min.cpu = p.cpu.min ∧ o.max.cpu = p.cpu.max))) ∧
    (o.FitsCpu p → ¬ o.FitsMemory p → ∃ e, p.apply o = (p.narrowCpu o, .error e)) := by
  refine ⟨?_, apply_of_not_fitsMemory⟩
  by_cases hcpu : o.FitsCpu p
  · by_cases hmem : o.FitsMemory p
    · simp [apply_of_fits hcpu hmem, hmem]
    · obtain ⟨e, he⟩ := apply_of_not_fitsMemory hcpu hmem
      simp [he, hcpu, hmem, ← narrowCpu_eq_self_iff]
  · obtain ⟨e, he⟩ := apply_of_not_fitsCpu hcpu
    simp [he, hcpu]

/-- Memory has eight slots and is to have nine: the override is refused, and CPU stays narrowed. -/
theorem refused_and_narrowed :
    ∃ p : Profile, ∃ o : Override,
      p.apply o = ({ p with cpu := ⟨500, 2000, 1000⟩ },
        .error (.overrideOutOfBounds .memory 1 9 1 8)) ∧ (p.apply o).1 ≠ p := by
  refine ⟨⟨"vm1", "ns", ⟨250, 4000, 1000⟩, ⟨1, 8, 2⟩, twoTo 30, true⟩, ⟨⟨500, 1⟩, ⟨2000, 9⟩⟩,
    ?_, ?_⟩
  · rfl
  · decide

end Profile

/-! ## Profiles of machines -/

theorem Entry.used_add_buffer_iff (p : Profile) :
    (Entry.ofProfile p).cpu.used + (Entry.ofProfile p).cpu.buffer = p.cpu.max ↔
      p.cpu.use ≤ p.cpu.max := by
  simp only [Entry.ofProfile, Bounds.buffer]
  omega

namespace VirtualMachine

def override? (v : VirtualMachine) : Option Override :=
  (v.metadata.note? boundsNote).bind fun text => (Override.ofText text).toOption

variable {v : VirtualMachine} {p q : Profile} {o : Override}

theorem ordered_of_specProfile (h : v.specProfile = .ok q) : q.cpu.Ordered ∧ q.mem.Ordered := by
  obtain ⟨cpu, hcpu, h⟩ := ok_of_bind h
  obtain ⟨mem, hmem, h⟩ := ok_of_bind h
  obtain ⟨size, -, h⟩ := ok_of_bind h
  cases h
  obtain ⟨lo, -, hcpu⟩ := ok_of_bind hcpu
  obtain ⟨hi, -, hcpu⟩ := ok_of_bind hcpu
  obtain ⟨use, -, hcpu⟩ := ok_of_bind hcpu
  exact ⟨(Bounds.of_eq_ok_iff.1 hcpu).2.2.2, (Bounds.of_eq_ok_iff.1 hmem).2.2.2⟩

theorem profile_eq_ok_iff : v.profile = .ok p ↔ ∃ q, v.specProfile = .ok q ∧
    (v.metadata.note? boundsNote = none ∧ p = q ∨
      ∃ text o, v.metadata.note? boundsNote = some text ∧ Override.ofText text = .ok o ∧
        q.apply o = (p, .ok ())) := by
  simp only [profile, bind_eq_ok_iff]
  refine exists_congr fun q => and_congr_right fun _ => ?_
  cases hnote : v.metadata.note? boundsNote with
  | none => simp [pure, Except.pure, eq_comm]
  | some text =>
    simp only [bind_eq_ok_iff, reduceCtorEq, false_and, false_or, Option.some.injEq,
      exists_and_left, exists_eq_left']
    refine exists_congr fun o => and_congr_right fun _ => ?_
    obtain ⟨narrowed, result⟩ := q.apply o
    cases result <;> simp [Except.map]

theorem spec_of_profile (h : v.profile = .ok p) :
    ∃ q, v.specProfile = .ok q ∧
      (v.override? = none ∧ p = q ∨ ∃ o, v.override? = some o ∧ q.apply o = (p, .ok ())) := by
  obtain ⟨q, hq, h⟩ := profile_eq_ok_iff.1 h
  refine ⟨q, hq, h.imp ?_ ?_⟩
  · rintro ⟨hnote, rfl⟩
    exact ⟨by simp [override?, hnote], rfl⟩
  · rintro ⟨text, o, hnote, ho, happly⟩
    exact ⟨o, by simp [override?, hnote, ho, Except.toOption], happly⟩

/-- In a profile the present use lies in both ranges just if the use that the spec tells lies in the
ranges of the annotation, if there is one. For CPU use and buffer make up the upper bound just if
the annotation has no upper bound below the use. -/
theorem profile_ordered_iff (h : v.profile = .ok p) :
    ∃ q, v.specProfile = .ok q ∧
      (p.cpu.Ordered ∧ p.mem.Ordered ↔ ∀ o, v.override? = some o → o.Admits q) ∧
      ((Entry.ofProfile p).cpu.used + (Entry.ofProfile p).cpu.buffer = p.cpu.max ↔
        ∀ o, v.override? = some o → q.cpu.use ≤ o.max.cpu) := by
  obtain ⟨q, hq, hcases⟩ := spec_of_profile h
  refine ⟨q, hq, ?_⟩
  rw [Entry.used_add_buffer_iff]
  rcases hcases with ⟨hnone, rfl⟩ | ⟨o, ho, happly⟩
  · have hordered := ordered_of_specProfile hq
    simp [hnone, hordered, hordered.1.use_le_max]
  · obtain ⟨-, -, rfl⟩ := Profile.eq_of_apply happly
    simp only [ho, Option.some.injEq, forall_eq']
    refine ⟨⟨?_, ?_⟩, Iff.rfl⟩
    · rintro ⟨⟨hmin, hmax⟩, ⟨hmin', hmax'⟩⟩
      exact ⟨⟨hmin, hmax⟩, hmin', hmax'⟩
    · rintro ⟨⟨hmin, hmax⟩, hmin', hmax'⟩
      exact ⟨⟨hmin, hmax⟩, ⟨hmin', hmax'⟩⟩

def busySample (note : String) : VirtualMachine :=
  ⟨{ Metadata.empty with
      name := some "vm1", space := some "ns", annotations := some (.ofList [(boundsNote, note)]) },
    some ⟨some ⟨some ⟨some (.text "250m"), some (.text "4"), some (.text "3")⟩,
      some ⟨some 1, some 8, some 2⟩, some "1Gi"⟩⟩, none⟩

theorem profile_ordered_sample :
    ∃ p, (busySample "[[0.5,1],[3,4]]").profile = .ok p ∧ p.cpu.Ordered ∧ p.mem.Ordered ∧
      (Entry.ofProfile p).cpu.used + (Entry.ofProfile p).cpu.buffer = p.cpu.max := by
  have h : (busySample "[[0.5,1],[3,4]]").profile =
      .ok ⟨"vm1", "ns", ⟨500, 3000, 3000⟩, ⟨1, 4, 2⟩, twoTo 30, false⟩ := rfl
  have ho : (busySample "[[0.5,1],[3,4]]").override? = some ⟨⟨500, 1⟩, ⟨3000, 4⟩⟩ := rfl
  obtain ⟨q, hq, hordered, hsum⟩ := profile_ordered_iff h
  cases hq
  simp only [ho, Option.some.injEq, forall_eq'] at hordered hsum
  obtain ⟨hcpu, hmem⟩ := hordered.2 ⟨⟨by decide, by decide⟩, ⟨by decide, by decide⟩⟩
  exact ⟨_, h, hcpu, hmem, hsum.2 (by decide)⟩

/-- The annotation allows two cores and the machine uses three. -/
theorem use_above_narrowed_max :
    ∃ p, (busySample "[[0.5,1],[2,4]]").profile = .ok p ∧ ¬ p.cpu.Ordered ∧
      (Entry.ofProfile p).cpu.used + (Entry.ofProfile p).cpu.buffer ≠ p.cpu.max := by
  refine ⟨⟨"vm1", "ns", ⟨500, 2000, 3000⟩, ⟨1, 4, 2⟩, twoTo 30, false⟩, rfl, ?_, by decide⟩
  rintro ⟨-, huse⟩
  exact absurd huse (by decide)

end VirtualMachine

end BufferLedger
