import BufferLedger.Settings
import Mathlib.Order.Bounds.Basic
import Mathlib.Order.Interval.Set.Basic
import Mathlib.Tactic.Common

/-!
# Delays stay in their range

A duration is given by how many nanoseconds it has, and these are all numbers up to that of the
largest one (`Duration.toNanos_injective`, `Duration.isGreatest_maxNanos`). So no number that is
drawn between two durations loses anything when it is put into words, and multiples of a unit form a
range just as long as the larger one is no more than a duration can be
(`DelayRange.draws_stay_in_range`).
-/

namespace BufferLedger

/-! ## Durations and their nanoseconds -/

namespace Duration

variable {a b d : Duration} {m n : Nat}

theorem seconds_eq_div (d : Duration) : d.seconds.toNat = d.toNanos / nanosPerSecond := by
  have hnanos := d.nanos_lt
  simp only [toNanos, nanosPerSecond_eq] at hnanos ⊢
  omega

theorem nanos_eq_mod (d : Duration) : d.nanos.toNat = d.toNanos % nanosPerSecond := by
  have hnanos := d.nanos_lt
  simp only [toNanos, nanosPerSecond_eq] at hnanos ⊢
  omega

theorem toNanos_injective : Function.Injective toNanos := by
  intro a b h
  have hseconds : a.seconds = b.seconds :=
    UInt64.toNat_inj.1 (by rw [seconds_eq_div, seconds_eq_div, h])
  have hnanos : a.nanos = b.nanos := UInt32.toNat_inj.1 (by rw [nanos_eq_mod, nanos_eq_mod, h])
  cases a
  cases b
  congr

theorem toNanos_le_maxNanos (d : Duration) : d.toNanos ≤ maxNanos := by
  refine Nat.le_sub_one_of_lt ?_
  calc d.toNanos < d.seconds.toNat * nanosPerSecond + nanosPerSecond :=
        Nat.add_lt_add_left d.nanos_lt _
    _ = (d.seconds.toNat + 1) * nanosPerSecond := (Nat.succ_mul _ _).symm
    _ ≤ twoTo 64 * nanosPerSecond := Nat.mul_le_mul_right _ d.seconds.toNat_lt

theorem toNanos_ofNanos (h : n ≤ maxNanos) : (ofNanos n).toNanos = n := by
  have hseconds : n / nanosPerSecond < 2 ^ 64 :=
    (Nat.div_lt_iff_lt_mul (by decide)).2 (Nat.lt_of_le_sub_one (by decide) h)
  have hnanos : n % nanosPerSecond < 2 ^ 32 := (Nat.mod_lt _ (by decide)).trans (by decide)
  calc (ofNanos n).toNanos
      = n / nanosPerSecond * nanosPerSecond + n % nanosPerSecond := by
        rw [toNanos, ofNanos, UInt64.toNat_ofNat_of_lt' hseconds, UInt32.toNat_ofNat_of_lt' hnanos]
    _ = n := Nat.div_add_mod' n nanosPerSecond

theorem isGreatest_maxNanos : IsGreatest (Set.range toNanos) maxNanos := by
  refine ⟨⟨ofNanos maxNanos, toNanos_ofNanos le_rfl⟩, ?_⟩
  rintro _ ⟨d, rfl⟩
  exact d.toNanos_le_maxNanos

theorem ofNanos?_eq_none_iff : ofNanos? n = none ↔ ∀ d : Duration, d.toNanos < n := by
  calc ofNanos? n = none ↔ maxNanos < n := by simp [ofNanos?]
    _ ↔ ∀ k ∈ Set.range toNanos, k < n := isGreatest_maxNanos.lt_iff
    _ ↔ ∀ d : Duration, d.toNanos < n := Set.forall_mem_range

theorem times?_eq_none_iff : d.times? n = none ↔ ∀ a : Duration, a.toNanos < d.toNanos * n :=
  ofNanos?_eq_none_iff

theorem times?_eq_none_of_le (h : m ≤ n) (hm : d.times? m = none) : d.times? n = none := by
  rw [times?_eq_none_iff] at hm ⊢
  exact fun a => (hm a).trans_le (Nat.mul_le_mul_left _ h)

end Duration

/-! ## Ranges -/

namespace DelayRange

open Duration

variable {a b d unit : Duration} {r : DelayRange} {draw m n : Nat}

theorem between_of_le (h : a.toNanos ≤ b.toNanos) : between a b = ⟨a, b⟩ := if_pos h

theorem between_comm (a b : Duration) : between a b = between b a := by
  rcases lt_trichotomy a.toNanos b.toNanos with h | h | h
  · rw [between_of_le h.le, between, if_neg h.not_ge]
  · -- With as many nanoseconds the two are one and the same duration.
    rw [toNanos_injective h]
  · rw [between_of_le h.le, between, if_neg h.not_ge]

theorem min_between (a b : Duration) : (between a b).min.toNanos = a.toNanos ⊓ b.toNanos := by
  rcases le_total a.toNanos b.toNanos with h | h
  · rw [between_of_le h, inf_eq_left.2 h]
  · rw [between_comm, between_of_le h, inf_eq_right.2 h]

theorem max_between (a b : Duration) : (between a b).max.toNanos = a.toNanos ⊔ b.toNanos := by
  rcases le_total a.toNanos b.toNanos with h | h
  · rw [between_of_le h, sup_eq_right.2 h]
  · rw [between_comm, between_of_le h, sup_eq_left.2 h]

theorem contains_iff : r.contains d ↔ d.toNanos ∈ Set.Icc r.min.toNanos r.max.toNanos := by
  simp [contains]

theorem toNanos_pick (h : draw ∈ Set.Icc r.min.toNanos r.max.toNanos) :
    (r.pick draw).toNanos = draw := by
  obtain ⟨hmin, hmax⟩ := h
  unfold pick
  split
  next heq =>
    rw [← heq] at hmax
    exact le_antisymm hmin hmax
  next => exact toNanos_ofNanos (hmax.trans r.max.toNanos_le_maxNanos)

theorem multiples?_comm (unit : Duration) (m n : Nat) :
    multiples? unit m n = multiples? unit n m := by
  unfold multiples?
  cases unit.times? m <;> cases unit.times? n <;> simp [between_comm]

theorem multiples?_eq_some (hm : unit.times? m = some a) (hn : unit.times? n = some b) :
    multiples? unit m n = some (between a b) := by
  simp [multiples?, hm, hn]

theorem multiples?_eq_none_iff_of_le (h : m ≤ n) :
    multiples? unit m n = none ↔ unit.times? n = none := by
  constructor
  · intro hnone
    cases hm : unit.times? m with
    | none => exact times?_eq_none_of_le h hm
    | some a =>
      rw [Option.eq_none_iff_forall_ne_some]
      intro b hn
      rw [multiples?_eq_some hm hn] at hnone
      cases hnone
  · intro hn
    cases hm : unit.times? m <;> simp [multiples?, hm, hn]

theorem multiples?_eq_none_iff :
    multiples? unit m n = none ↔ ∀ d : Duration, d.toNanos < unit.toNanos * (m ⊔ n) := by
  rw [← times?_eq_none_iff]
  rcases le_total m n with h | h
  · rw [multiples?_eq_none_iff_of_le h, sup_eq_right.2 h]
  · rw [multiples?_comm, multiples?_eq_none_iff_of_le h, sup_eq_left.2 h]

/-- A range is the same for its bounds in either order. Every number of nanoseconds between them
makes a delay of exactly so many, with its whole seconds in one word and the rest in the other, and
this delay is in the range. Multiples of a unit are a range in either order, and none just if the
larger one is more than every duration. -/
theorem draws_stay_in_range (a b unit : Duration) (m n : Nat) :
    between a b = between b a ∧
    (between a b).min.toNanos = a.toNanos ⊓ b.toNanos ∧
    (between a b).max.toNanos = a.toNanos ⊔ b.toNanos ∧
    (∀ draw ∈ Set.Icc (a.toNanos ⊓ b.toNanos) (a.toNanos ⊔ b.toNanos),
      ((between a b).pick draw).toNanos = draw ∧
      ((between a b).pick draw).seconds.toNat = draw / nanosPerSecond ∧
      ((between a b).pick draw).nanos.toNat = draw % nanosPerSecond ∧
      (between a b).contains ((between a b).pick draw)) ∧
    multiples? unit m n = multiples? unit n m ∧
    (multiples? unit m n = none ↔ ∀ d : Duration, d.toNanos < unit.toNanos * (m ⊔ n)) := by
  refine ⟨between_comm a b, min_between a b, max_between a b, fun draw hdraw => ?_,
    multiples?_comm unit m n, multiples?_eq_none_iff⟩
  rw [← min_between, ← max_between] at hdraw
  have hexact := toNanos_pick hdraw
  refine ⟨hexact, ?_, ?_, ?_⟩
  · rw [seconds_eq_div, hexact]
  · rw [nanos_eq_mod, hexact]
  · rw [contains_iff, hexact]
    exact hdraw

theorem draws_up_to_largest :
    maxNanos - 1 ∈ Set.Icc ((ofNanos maxNanos).toNanos ⊓ (ofNanos 0).toNanos)
      ((ofNanos maxNanos).toNanos ⊔ (ofNanos 0).toNanos) ∧
    ((between (ofNanos maxNanos) (ofNanos 0)).pick (maxNanos - 1)).toNanos = maxNanos - 1 ∧
    ((between (ofNanos maxNanos) (ofNanos 0)).pick (maxNanos - 1)).seconds.toNat = Text.word64Max ∧
    ((between (ofNanos maxNanos) (ofNanos 0)).pick (maxNanos - 1)).nanos.toNat = 999999998 ∧
    (ofSeconds (twoTo 63)).toNanos * 2 = maxNanos + 1 ∧
    multiples? (ofSeconds (twoTo 63)) 0 2 = none ∧
    multiples? (ofSeconds (twoTo 63)) 2 0 = none := by
  have hbetween : maxNanos - 1 ∈ Set.Icc ((ofNanos maxNanos).toNanos ⊓ (ofNanos 0).toNanos)
      ((ofNanos maxNanos).toNanos ⊔ (ofNanos 0).toNanos) := ⟨by decide, by decide⟩
  have hlarge : (ofSeconds (twoTo 63)).toNanos * 2 = maxNanos + 1 := by decide
  obtain ⟨-, -, -, hdraw, hcomm, hnone⟩ :=
    draws_stay_in_range (ofNanos maxNanos) (ofNanos 0) (ofSeconds (twoTo 63)) 0 2
  obtain ⟨hexact, hseconds, hnanos, -⟩ := hdraw _ hbetween
  have hrefused : multiples? (ofSeconds (twoTo 63)) 0 2 = none :=
    hnone.2 fun d => (Nat.lt_succ_of_le d.toNanos_le_maxNanos).trans_eq hlarge.symm
  exact ⟨hbetween, hexact, hseconds, hnanos, hlarge, hrefused, hcomm ▸ hrefused⟩

end DelayRange

end BufferLedger
