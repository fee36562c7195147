import BufferLedger.Proofs.Rounding

/-!
# Errors of rounding

Between the least number with all its bits and the largest one, a quotient is rounded to a number
that differs from it by at most the `2 ^ 53`rd part of it (`Binary64.near_ofQuotient`), and so is a
product. A number that is less than one half away from a whole one is rounded to that one
(`Binary64.round?_of_near`).
-/

namespace BufferLedger.Binary64

section Whole

variable {k num den : Nat}

theorem roundHalfEven_halves (num : Nat) (hden : den ≠ 0) :
    2 * num ≤ (2 * roundHalfEven num den + 1) * den ∧
      2 * roundHalfEven num den * den ≤ 2 * num + den := by
  have hdiv := Nat.div_add_mod num den
  have hmod := Nat.mod_lt num (Nat.pos_of_ne_zero hden)
  unfold roundHalfEven
  dsimp only
  generalize num / den = q at hdiv ⊢
  generalize num % den = r at hdiv hmod ⊢
  have hq : (2 * q + 1) * den = 2 * (den * q) + den := by ring
  have hnext : (2 * (q + 1) + 1) * den = 2 * (den * q) + 3 * den := by ring
  have hq' : 2 * q * den = 2 * (den * q) := by ring
  have hnext' : 2 * (q + 1) * den = 2 * (den * q) + 2 * den := by ring
  split <;> omega

theorem abs_roundHalfEven_sub_le (num : Nat) (hden : den ≠ 0) :
    |(roundHalfEven num den : ℚ) - num / den| ≤ 1 / 2 := by
  obtain ⟨hlow, hhigh⟩ := roundHalfEven_halves num hden
  have hlow : (2 * num : ℚ) ≤ (2 * roundHalfEven num den + 1) * den := by exact_mod_cast hlow
  have hhigh : (2 * roundHalfEven num den * den : ℚ) ≤ 2 * num + den := by exact_mod_cast hhigh
  have hpos : (0 : ℚ) < den := by positivity
  rw [abs_sub_le_iff, sub_le_iff_le_add, sub_le_iff_le_add]
  constructor
  · rw [← sub_le_iff_le_add', le_div_iff₀ hpos]
    linarith
  · rw [div_le_iff₀ hpos]
    linarith

theorem roundHalfUp_of_near (hden : den ≠ 0) (h : |(num / den : ℚ) - k| < 1 / 2) :
    roundHalfUp num den = k := by
  have hpos : (0 : ℚ) < den := by positivity
  obtain ⟨hlow, hhigh⟩ := abs_sub_lt_iff.1 h
  rw [sub_lt_iff_lt_add, div_lt_iff₀ hpos] at hlow
  rw [sub_lt_comm, lt_div_iff₀ hpos] at hhigh
  have hlow : (2 * num : ℚ) < (2 * k + 1) * den := by linarith
  have hhigh : (2 * k * den : ℚ) < 2 * num + den := by linarith
  have hlow : 2 * num < (2 * k + 1) * den := by exact_mod_cast hlow
  have hhigh : 2 * k * den < 2 * num + den := by exact_mod_cast hhigh
  refine Nat.div_eq_of_lt_le ?_ ?_
  · calc k * (2 * den) = 2 * k * den := by ring
      _ ≤ 2 * num + den := hhigh.le
  · calc 2 * num + den < (2 * k + 1) * den + den := Nat.add_lt_add_right hlow den
      _ = (k + 1) * (2 * den) := by ring

end Whole

/-- A finite number that is not negative and differs from another one by at most the `2 ^ 53`rd part
of it. -/
def Near (q : ℚ) (x : Binary64) : Prop :=
  ∃ m e, x = .finite false m e ∧ |amount m e - q| ≤ q / 2 ^ 53

theorem near_ofQuotient {num den : Nat} (hden : den ≠ 0)
    (hlow : (2 : ℚ) ^ (minExponent + 52) ≤ num / den)
    (hhigh : (num / den : ℚ) < 2 ^ (maxExponent + 52)) :
    Near (num / den) (ofQuotient false num den) := by
  have hpos : (0 : ℚ) < num / den := lt_of_lt_of_le (by positivity) hlow
  have hnum : num ≠ 0 := by
    rintro rfl
    simp at hpos
  have hle : minExponent ≤ exponentOf num den := le_max_left ..
  -- The quotient has all its bits, so the unit of the last place is a small part of it.
  have hfull : (2 : ℚ) ^ (exponentOf num den + 52) ≤ num / den := by
    rcases hle.eq_or_lt with heq | hlt
    · rwa [← heq]
    · exact normal_of_minExponent_lt hnum hden hlt
  have hmax : exponentOf num den < maxExponent := by
    have hpower := (zpow_lt_zpow_iff_right₀ one_lt_two).1 (hfull.trans_lt hhigh)
    omega
  obtain ⟨m, e, hx, he, hm⟩ := ofQuotient_amount den false hnum
  refine ⟨m, e, by rw [hx, if_neg (by omega)], ?_⟩
  have herror := abs_roundHalfEven_sub_le (scaled num den (exponentOf num den)).1
    (scaled_ne_zero num (exponentOf num den) hden)
  rw [scaled_div] at herror
  rw [hm]
  generalize exponentOf num den = e₀ at hfull herror ⊢
  generalize (roundHalfEven _ _ : ℚ) = r at herror ⊢
  have hunit : (0 : ℚ) < 2 ^ e₀ := by positivity
  calc |r * 2 ^ e₀ - num / den| = |(r - num / den / 2 ^ e₀) * 2 ^ e₀| := by
        rw [sub_mul, div_mul_cancel₀ _ hunit.ne']
    _ = |r - num / den / 2 ^ e₀| * 2 ^ e₀ := by rw [abs_mul, abs_of_pos hunit]
    _ ≤ 1 / 2 * 2 ^ e₀ := by gcongr
    _ = 2 ^ (e₀ + 52) / 2 ^ 53 := by
        rw [zpow_add₀ two_ne_zero]
        norm_num
        ring
    _ ≤ num / den / 2 ^ 53 := by gcongr

theorem near_ofQuotient_of_moderate {num den : Nat} (hden : den ≠ 0)
    (hlow : (1 / 1024 : ℚ) ≤ num / den) (hhigh : (num / den : ℚ) < 2 ^ 40) :
    Near (num / den) (ofQuotient false num den) := by
  refine near_ofQuotient hden (le_trans ?_ hlow) (hhigh.trans_le ?_)
  · calc (2 : ℚ) ^ (minExponent + 52) ≤ 2 ^ (-10 : Int) :=
          zpow_le_zpow_right₀ one_le_two (by decide)
      _ = 1 / 1024 := by norm_num
  · calc (2 : ℚ) ^ 40 = 2 ^ (40 : Int) := (zpow_natCast 2 40).symm
      _ ≤ 2 ^ (maxExponent + 52) := zpow_le_zpow_right₀ one_le_two (by decide)

theorem near_mul (m m' : Nat) (e e' : Int) (hlow : (1 / 1024 : ℚ) ≤ amount m e * amount m' e')
    (hhigh : amount m e * amount m' e' < 2 ^ 40) :
    Near (amount m e * amount m' e') ((finite false m e).mul (finite false m' e')) := by
  have hproduct : ((magnitude (m * m') (e + e')).1 / (magnitude (m * m') (e + e')).2 : ℚ) =
      amount m e * amount m' e' := by
    rw [magnitude_div, amount_mul]
  rw [mul_finite, ← hproduct]
  rw [← hproduct] at hlow hhigh
  exact near_ofQuotient_of_moderate (magnitude_ne_zero _ _) hlow hhigh

theorem round?_of_near {q : ℚ} {x : Binary64} {k : Nat} (hx : Near q x)
    (h : |q - k| + q / 2 ^ 53 < 1 / 2) : x.round? = some (k : Int) := by
  obtain ⟨m, e, rfl, herror⟩ := hx
  have hnear : |amount m e - k| < 1 / 2 :=
    calc |amount m e - k| ≤ |amount m e - q| + |q - k| := abs_sub_le _ _ _
      _ ≤ q / 2 ^ 53 + |q - k| := by gcongr
      _ < 1 / 2 := by rwa [add_comm]
  rw [round?_finite, roundHalfUp_of_near (magnitude_ne_zero m e) (by rwa [magnitude_div])]

end BufferLedger.Binary64
