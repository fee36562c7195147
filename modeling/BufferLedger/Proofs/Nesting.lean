import BufferLedger.Proofs.Narrowing

/-!
# Ranges are nested

Whatever overrides are applied one after the other, and whichever of them are refused, a range is
never empty and always lies in the ranges that there were before; an override that has been accepted
is accepted again and then changes nothing (`Profile.nested_along`). It is so although an override
is compared with ranges that earlier ones have left behind, also earlier ones that were refused.
-/

namespace BufferLedger

namespace Bounds

variable {b inner : Bounds} {min max : Nat}

theorem encloses_refl (h : b.min ≤ b.max) : b.Encloses b.min b.max :=
  ⟨h, Nat.le_refl _, Nat.le_refl _⟩

theorem Encloses.trans (h : inner.Encloses min max) (houter : b.Encloses inner.min inner.max) :
    b.Encloses min max :=
  ⟨h.min_le_max, Nat.le_trans houter.le_min h.le_min, Nat.le_trans h.max_le houter.max_le⟩

end Bounds

namespace Profile

/-- A profile with ranges that are not empty and lie in those of another one, from which it does not
differ in anything else. -/
structure Narrows (q p : Profile) : Prop where
  cpu : p.cpu.Encloses q.cpu.min q.cpu.max
  mem : p.mem.Encloses q.mem.min q.mem.max
  cpuUse : q.cpu.use = p.cpu.use
  memUse : q.mem.use = p.mem.use
  slotSize : q.slotSize = p.slotSize
  name : q.name = p.name
  space : q.space = p.space
  scalable : q.scalable = p.scalable

def applyAll (os : List Override) (p : Profile) : Profile :=
  os.foldl (fun p o => (p.apply o).1) p

variable {p q r : Profile}

theorem applyAll_append (os os' : List Override) (p : Profile) :
    p.applyAll (os ++ os') = (p.applyAll os).applyAll os' :=
  List.foldl_append

theorem narrows_refl (hcpu : p.cpu.min ≤ p.cpu.max) (hmem : p.mem.min ≤ p.mem.max) :
    p.Narrows p :=
  ⟨Bounds.encloses_refl hcpu, Bounds.encloses_refl hmem, rfl, rfl, rfl, rfl, rfl, rfl⟩

theorem Narrows.trans (h : r.Narrows q) (h' : q.Narrows p) : r.Narrows p where
  cpu := h.cpu.trans h'.cpu
  mem := h.mem.trans h'.mem
  cpuUse := h.cpuUse.trans h'.cpuUse
  memUse := h.memUse.trans h'.memUse
  slotSize := h.slotSize.trans h'.slotSize
  name := h.name.trans h'.name
  space := h.space.trans h'.space
  scalable := h.scalable.trans h'.scalable

theorem narrows_apply (o : Override) (hcpu : p.cpu.min ≤ p.cpu.max)
    (hmem : p.mem.min ≤ p.mem.max) : (p.apply o).1.Narrows p := by
  by_cases hfits : o.FitsCpu p
  · by_cases hfits' : o.FitsMemory p
    · rw [apply_of_fits hfits hfits']
      exact ⟨hfits, hfits', rfl, rfl, rfl, rfl, rfl, rfl⟩
    · obtain ⟨e, he⟩ := apply_of_not_fitsMemory hfits hfits'
      rw [he]
      exact ⟨hfits, Bounds.encloses_refl hmem, rfl, rfl, rfl, rfl, rfl, rfl⟩
  · obtain ⟨e, he⟩ := apply_of_not_fitsCpu hfits
    rw [he]
    exact narrows_refl hcpu hmem

theorem narrows_applyAll (os : List Override) (hcpu : p.cpu.min ≤ p.cpu.max)
    (hmem : p.mem.min ≤ p.mem.max) : (p.applyAll os).Narrows p := by
  induction os generalizing p with
  | nil => exact narrows_refl hcpu hmem
  | cons o os ih =>
    have hstep := narrows_apply o hcpu hmem
    exact (ih hstep.cpu.min_le_max hstep.mem.min_le_max).trans hstep

theorem apply_again {o : Override} (h : p.apply o = (q, .ok ())) : q.apply o = (q, .ok ()) := by
  obtain ⟨hcpu, hmem, rfl⟩ := eq_of_apply h
  exact apply_of_fits (Bounds.encloses_refl hcpu.min_le_max) (Bounds.encloses_refl hmem.min_le_max)

/-- After any overrides both ranges are not empty and lie in what they were after fewer of them, and
nothing else has changed; and an override that is accepted then is accepted once more and changes
nothing. -/
theorem nested_along (hcpu : p.cpu.min ≤ p.cpu.max) (hmem : p.mem.min ≤ p.mem.max)
    (earlier later : List Override) :
    (p.applyAll (earlier ++ later)).Narrows (p.applyAll earlier) ∧
    (∀ o q, (p.applyAll earlier).apply o = (q, .ok ()) → q.apply o = (q, .ok ())) := by
  have hearlier := narrows_applyAll earlier hcpu hmem
  refine ⟨?_, fun o q h => apply_again h⟩
  rw [applyAll_append]
  exact narrows_applyAll later hearlier.cpu.min_le_max hearlier.mem.min_le_max

theorem nested_sample :
    ∃ p : Profile, ∃ o o' o'' : Override,
      p.cpu.min ≤ p.cpu.max ∧ p.mem.min ≤ p.mem.max ∧
      p.applyAll [o] = { p with cpu := ⟨500, 2000, 1000⟩ } ∧
      p.applyAll ([o] ++ [o', o'']) =
        { p with cpu := ⟨600, 1500, 1000⟩, mem := ⟨1, 4, 2⟩ } ∧
      (p.applyAll ([o] ++ [o', o''])).Narrows (p.applyAll [o]) ∧
      (p.applyAll [o, o', o'']).apply o'' = (p.applyAll [o, o', o''], .ok ()) := by
  let p : Profile := ⟨"vm1", "ns", ⟨250, 4000, 1000⟩, ⟨1, 8, 2⟩, twoTo 30, true⟩
  let o'' : Override := ⟨⟨600, 1⟩, ⟨1500, 4⟩⟩
  have hcpu : p.cpu.min ≤ p.cpu.max := by decide
  have hmem : p.mem.min ≤ p.mem.max := by decide
  refine ⟨p, ⟨⟨500, 1⟩, ⟨2000, 9⟩⟩, ⟨⟨250, 1⟩, ⟨4000, 8⟩⟩, o'', hcpu, hmem, rfl, rfl, ?_, ?_⟩
  · exact (nested_along hcpu hmem _ _).1
  · exact (nested_along hcpu hmem [⟨⟨500, 1⟩, ⟨2000, 9⟩⟩, ⟨⟨250, 1⟩, ⟨4000, 8⟩⟩] []).2 o'' _ rfl

end Profile

end BufferLedger
