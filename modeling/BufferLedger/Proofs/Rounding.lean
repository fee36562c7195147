import BufferLedger.Proofs.FiniteNumbers
import Mathlib.Algebra.Order.Field.Power
import Mathlib.Algebra.Order.Field.Rat
import Mathlib.Tactic.FieldSimp
import Mathlib.Tactic.Linarith
import Mathlib.Tactic.Positivity
import Mathlib.Tactic.NormNum
import Mathlib.Tactic.Ring

/-!
# Rounding does not cross a number

A number with a significand of at most fifty-three bits that is not above a quotient is not above
what the quotient is rounded to either (`Binary64.atLeast_ofQuotient`), and so it is with a product
(`Binary64.AtLeast.mul`). Values are compared as rational numbers.
-/

namespace BufferLedger

theorem cast_twoTo (n : Nat) : (twoTo n : ℚ) = 2 ^ n :=
  Nat.cast_pow 2 n

theorem cast_mul_twoTo (k t : Nat) : ((k * twoTo t : Nat) : ℚ) = k * 2 ^ (t : Int) := by
  rw [Nat.cast_mul, cast_twoTo, zpow_natCast]

namespace Binary64

def amount (m : Nat) (e : Int) : ℚ := m * 2 ^ e

theorem scaled_div (num den : Nat) (e : Int) :
    ((scaled num den e).1 : ℚ) / (scaled num den e).2 = num / den / 2 ^ e := by
  unfold scaled
  split
  · obtain ⟨k, rfl⟩ := Int.eq_ofNat_of_zero_le ‹0 ≤ e›
    simp [cast_twoTo, div_div]
  · obtain ⟨k, hk⟩ := Int.eq_ofNat_of_zero_le (show 0 ≤ -e by omega)
    obtain rfl : e = -(k : Int) := by omega
    simp only [neg_neg, Int.toNat_natCast, Nat.cast_mul, cast_twoTo, zpow_neg, zpow_natCast]
    field_simp

theorem magnitude_div (m : Nat) (e : Int) :
    ((magnitude m e).1 : ℚ) / (magnitude m e).2 = amount m e := by
  rw [magnitude, scaled_div, amount, zpow_neg, Nat.cast_one, div_one, div_inv_eq_mul]

theorem mul_le_of_le_div {k num den : Nat} (hden : den ≠ 0) (h : (k : ℚ) ≤ num / den) :
    k * den ≤ num := by
  rw [le_div_iff₀ (by positivity)] at h
  exact_mod_cast h

/-! ## Whole numbers -/

section Whole

variable {k num den : Nat}

theorem le_roundHalfEven (hden : den ≠ 0) (h : k * den ≤ num) : k ≤ roundHalfEven num den := by
  have hq : k ≤ num / den := (Nat.le_div_iff_mul_le (Nat.pos_of_ne_zero hden)).2 h
  unfold roundHalfEven
  dsimp only
  split <;> omega

theorem lt_roundHalfEven (hden : den ≠ 0) (h : (2 * k + 1) * den < 2 * num) :
    k < roundHalfEven num den := by
  have hdiv := Nat.div_add_mod num den
  have hhalf : (2 * k + 1) * den = 2 * (den * k) + den := by ring
  rcases Nat.lt_trichotomy k (num / den) with hlt | rfl | hgt
  · unfold roundHalfEven
    dsimp only
    split <;> omega
  · rw [roundHalfEven, if_pos (.inl (by omega))]
    exact Nat.lt_succ_self _
  · have hnum : num < den * (num / den + 1) := Nat.lt_mul_div_succ num (Nat.pos_of_ne_zero hden)
    have hk : den * (num / den + 1) ≤ den * k := Nat.mul_le_mul_left den hgt
    omega

theorem roundHalfEven_le_of_even (hden : den ≠ 0) (heven : k % 2 = 0)
    (h : 2 * num ≤ (2 * k + 1) * den) : roundHalfEven num den ≤ k := by
  have hdiv := Nat.div_add_mod num den
  have hhalf : (2 * k + 1) * den = 2 * (den * k) + den := by ring
  rcases Nat.lt_trichotomy k (num / den) with hlt | rfl | hgt
  · have hk : den * (k + 1) ≤ den * (num / den) := Nat.mul_le_mul_left den hlt
    rw [Nat.mul_add, Nat.mul_one] at hk
    omega
  · rw [roundHalfEven, if_neg (by omega)]
  · unfold roundHalfEven
    dsimp only
    split <;> omega

theorem le_roundHalfUp (hden : den ≠ 0) (h : k * den ≤ num) : k ≤ roundHalfUp num den := by
  rw [roundHalfUp, Nat.le_div_iff_mul_le (by positivity)]
  calc k * (2 * den) = 2 * (k * den) := by ring
    _ ≤ 2 * num + den := by omega

end Whole

/-! ## Quotients -/

theorem two_zpow_log2_le {num den : Nat} (hnum : num ≠ 0) (hden : den ≠ 0) :
    (2 : ℚ) ^ ((num.log2 : Int) - den.log2 - 1) ≤ num / den := by
  have hlow : (2 : ℚ) ^ num.log2 ≤ num := by
    rw [← cast_twoTo]
    exact_mod_cast twoTo_log2_le hnum
  have hhigh : (den : ℚ) ≤ 2 ^ (den.log2 + 1) := by
    rw [← cast_twoTo]
    exact_mod_cast Nat.le_of_lt (lt_twoTo_log2 den)
  rw [le_div_iff₀ (by positivity)]
  calc (2 : ℚ) ^ ((num.log2 : Int) - den.log2 - 1) * den
      ≤ 2 ^ ((num.log2 : Int) - den.log2 - 1) * 2 ^ (den.log2 + 1) := by gcongr
    _ = 2 ^ num.log2 := by
      rw [← zpow_natCast, ← zpow_natCast, ← zpow_add₀ two_ne_zero]
      congr 1
      push_cast
      ring
    _ ≤ num := hlow

theorem normal_of_minExponent_lt {num den : Nat} (hnum : num ≠ 0) (hden : den ≠ 0)
    (h : minExponent < exponentOf num den) :
    (2 : ℚ) ^ (exponentOf num den + 52) ≤ num / den := by
  unfold exponentOf at h ⊢
  dsimp only at h ⊢
  generalize he : (num.log2 : Int) - den.log2 - 52 = e at h ⊢
  have hd := scaled_ne_zero num e hden
  have hratio := scaled_div num den e
  generalize scaled num den e = p at h hd hratio ⊢
  obtain ⟨n, d⟩ := p
  dsimp only at h hd hratio ⊢
  rw [max_eq_right_of_lt (by omega)]
  split
  · rw [show e - 1 + 52 = (num.log2 : Int) - den.log2 - 1 by omega]
    exact two_zpow_log2_le hnum hden
  · rename_i hlarge
    have hlarge : (2 : ℚ) ^ 52 * d ≤ n := by
      rw [← cast_twoTo, mul_comm]
      exact_mod_cast Nat.le_of_not_lt hlarge
    rw [zpow_add₀ two_ne_zero, ← le_div_iff₀' (by positivity), ← hratio,
      le_div_iff₀ (by positivity)]
    exact_mod_cast hlarge

theorem ofQuotient_amount {num : Nat} (den : Nat) (negative : Bool) (hnum : num ≠ 0) :
    ∃ m e, ofQuotient negative num den =
        (if maxExponent < e then .infinity negative else .finite negative m e) ∧
      e ≤ exponentOf num den + 1 ∧
      amount m e = roundHalfEven (scaled num den (exponentOf num den)).1
        (scaled num den (exponentOf num den)).2 * 2 ^ exponentOf num den := by
  obtain ⟨m, e, hx, hrounded | ⟨hfull, hrounded⟩⟩ := ofQuotient_rounded den negative hnum
  · cases hrounded
    exact ⟨_, _, hx, by omega, rfl⟩
  · cases hrounded
    refine ⟨_, _, hx, Int.le_refl _, ?_⟩
    rw [hfull, amount, cast_twoTo, cast_twoTo, zpow_add_one₀ two_ne_zero]
    ring

/-- A number that is not negative and at least as large, perhaps infinite. -/
def AtLeast (b : ℚ) : Binary64 → Prop
  | .finite false m e => b ≤ amount m e
  | .infinity false => True
  | _ => False

theorem AtLeast.mono {b c : ℚ} {x : Binary64} (h : AtLeast c x) (hle : b ≤ c) : AtLeast b x := by
  match x, h with
  | .finite false m e, h => exact hle.trans h
  | .infinity false, _ => trivial

theorem atLeast_ofQuotient {num den k : Nat} {j : Int} (hden : den ≠ 0) (hk : k ≤ twoTo 53)
    (hj : minExponent ≤ j) (h : (k : ℚ) * 2 ^ j ≤ num / den) :
    AtLeast (k * 2 ^ j) (ofQuotient false num den) := by
  by_cases hnum : num = 0
  · subst hnum
    simpa [ofQuotient, AtLeast, amount] using h
  obtain ⟨m, e, hx, -, hm⟩ := ofQuotient_amount den false hnum
  have hd := scaled_ne_zero num (exponentOf num den) hden
  have hnormal := normal_of_minExponent_lt hnum hden
  have hratio := scaled_div num den (exponentOf num den)
  generalize scaled num den (exponentOf num den) = p at hm hd hratio
  generalize exponentOf num den = e₀ at hm hnormal hratio
  have hle : (k : ℚ) * 2 ^ j ≤ amount m e := by
    rw [hm]
    by_cases hje : e₀ ≤ j
    -- A whole number of units in the last place: rounding does not cross it.
    · obtain ⟨t, ht⟩ := Int.eq_ofNat_of_zero_le (Int.sub_nonneg.2 hje)
      obtain rfl : j = t + e₀ := by omega
      rw [zpow_add₀ two_ne_zero, zpow_natCast, ← mul_assoc] at h ⊢
      have hround : k * 2 ^ t ≤ roundHalfEven p.1 p.2 := by
        refine le_roundHalfEven hd (mul_le_of_le_div hd ?_)
        rw [hratio, le_div_iff₀ (by positivity)]
        exact_mod_cast h
      gcongr
      exact_mod_cast hround
    -- The quotient has all its bits, and fifty-three bits below that exponent do not reach it.
    · have hfull := hnormal (by omega)
      have hround : 2 ^ 52 ≤ roundHalfEven p.1 p.2 := by
        refine le_roundHalfEven hd (mul_le_of_le_div hd ?_)
        rw [hratio, le_div_iff₀ (by positivity)]
        calc ((2 ^ 52 : Nat) : ℚ) * 2 ^ e₀ = 2 ^ (e₀ + 52) := by
              rw [zpow_add₀ two_ne_zero]
              push_cast
              ring
          _ ≤ num / den := hfull
      calc (k : ℚ) * 2 ^ j ≤ 2 ^ 53 * 2 ^ (e₀ - 1) := by
            gcongr
            · rw [← cast_twoTo]
              exact_mod_cast hk
            · norm_num
            · omega
        _ = ((2 ^ 52 : Nat) : ℚ) * 2 ^ e₀ := by
            rw [zpow_sub_one₀ two_ne_zero]
            push_cast
            ring
        _ ≤ _ := by
            gcongr
  rw [hx]
  split
  · trivial
  · exact hle

theorem atLeast_ofQuotient_whole {num den k t : Nat} (hden : den ≠ 0) (hk : k ≤ twoTo 53)
    (h : ((k * twoTo t : Nat) : ℚ) ≤ num / den) :
    AtLeast (k * twoTo t : Nat) (ofQuotient false num den) := by
  rw [cast_mul_twoTo] at h ⊢
  exact atLeast_ofQuotient hden hk (Int.le_trans (by decide) (Int.natCast_nonneg t)) h

theorem atLeast_ofNat {n k t : Nat} (hk : k ≤ twoTo 53) (h : k * twoTo t ≤ n) :
    AtLeast (k * twoTo t : Nat) (ofNat n) := by
  refine atLeast_ofQuotient_whole Nat.one_ne_zero hk ?_
  rw [Nat.cast_one, div_one]
  exact_mod_cast h

theorem amount_mul (m m' : Nat) (e e' : Int) :
    amount (m * m') (e + e') = amount m e * amount m' e' := by
  rw [amount, amount, amount, zpow_add₀ two_ne_zero]
  push_cast
  ring

theorem mul_finite (s s' : Bool) (m m' : Nat) (e e' : Int) :
    (finite s m e).mul (finite s' m' e') =
      ofQuotient (s != s') (magnitude (m * m') (e + e')).1 (magnitude (m * m') (e + e')).2 :=
  rfl

theorem round?_finite (m : Nat) (e : Int) :
    (finite false m e).round? = some ↑(roundHalfUp (magnitude m e).1 (magnitude m e).2) :=
  rfl

theorem ne_zero_of_amount_pos {m : Nat} {e : Int} (h : 0 < amount m e) : m ≠ 0 := by
  rintro rfl
  simp [amount] at h

theorem AtLeast.mul {b c : ℚ} {x y : Binary64} {k t : Nat} (hx : AtLeast b x) (hy : AtLeast c y)
    (hb : 0 < b) (hc : 0 < c) (hk : k ≤ twoTo 53) (h : ((k * twoTo t : Nat) : ℚ) ≤ b * c) :
    AtLeast (k * twoTo t : Nat) (x.mul y) := by
  match x, y, hx, hy with
  | .infinity false, .infinity false, _, _ => trivial
  | .infinity false, .finite false m e, _, hy =>
    rw [Binary64.mul, if_neg (ne_zero_of_amount_pos (hc.trans_le hy))]
    trivial
  | .finite false m e, .infinity false, hx, _ =>
    rw [Binary64.mul, if_neg (ne_zero_of_amount_pos (hb.trans_le hx))]
    trivial
  | .finite false m e, .finite false m' e', hx, hy =>
    rw [mul_finite]
    refine atLeast_ofQuotient_whole (magnitude_ne_zero _ _) hk ?_
    rw [magnitude_div, amount_mul]
    exact h.trans (mul_le_mul hx hy hc.le (hb.le.trans hx))

theorem AtLeast.le_of_round? {b : Nat} {x : Binary64} {r : Int} (hx : AtLeast b x)
    (hr : x.round? = some r) : (b : Int) ≤ r := by
  match x, hx with
  | .infinity false, _ => cases hr
  | .finite false m e, hx =>
    rw [round?_finite, Option.some.injEq] at hr
    rw [← hr, Int.ofNat_le]
    refine le_roundHalfUp (magnitude_ne_zero m e) (mul_le_of_le_div (magnitude_ne_zero m e) ?_)
    rwa [magnitude_div]

end Binary64

end BufferLedger
