import BufferLedger.Proofs.MemoryQuantities
import BufferLedger.Proofs.RoundingError
import BufferLedger.Quantity.Cpu

/-!
# Two notations of an amount of CPU

Thousandths of a core and cores are two notations of the same amount (`Quantity.notations_agree`).
Cores are rounded twice, once when they are read and once when they are multiplied. As far as
thirty-two bits go, both errors together stay far below one half of a thousandth.
-/

namespace BufferLedger

namespace Binary64

theorem ofNat_thousand : ofNat 1000 = .finite false (1000 * twoTo 43) (-43) := by
  decide +kernel

theorem amount_thousand : amount (1000 * twoTo 43) (-43) = 1000 := by
  rw [amount, cast_mul_twoTo, mul_assoc, ← zpow_add₀ two_ne_zero]
  norm_num

end Binary64

namespace Quantity

open Text Binary64

variable {n : Nat} {x : Binary64}

theorem cast_bounds (hpos : 0 < n) (hn : n ≤ word32Max) : (1 : ℚ) ≤ n ∧ (n : ℚ) ≤ 4294967295 :=
  ⟨by exact_mod_cast hpos, by exact_mod_cast hn⟩

theorem milliOfCores?_of_near (hpos : 0 < n) (hn : n ≤ word32Max) (hx : Near (n / 1000) x) :
    milliOfCores? x = some n := by
  obtain ⟨hone, hmax⟩ := cast_bounds hpos hn
  obtain ⟨m, e, rfl, herror⟩ := hx
  obtain ⟨hlow, hhigh⟩ := abs_sub_le_iff.1 herror
  have hproduct := near_mul m (1000 * twoTo 43) e (-43) (by rw [amount_thousand]; linarith)
    (by rw [amount_thousand]; linarith)
  rw [amount_thousand] at hproduct
  have hround : ((finite false m e).mul (ofNat 1000)).round? = some (n : Int) := by
    rw [ofNat_thousand]
    -- Each of the two roundings moves the number by a part of itself, and it is below `2 ^ 32`.
    have hfirst : |amount m e * 1000 - n| ≤ n / 2 ^ 53 :=
      abs_sub_le_iff.2 ⟨by linarith, by linarith⟩
    exact round?_of_near hproduct (by linarith)
  simp [milliOfCores?, hround, hn]

/-! ## Cores -/

theorem large_of_thousandths {d places : Nat} (hpos : 0 < n) (h : 1000 * d = n * tenTo places) :
    d ≠ 0 ∧ places ≤ d.log2 + 400 := by
  have hpower : tenTo places ≤ 1000 * d := by
    rw [h]
    exact Nat.le_mul_of_pos_left _ hpos
  have hd : d ≠ 0 := by
    rintro rfl
    exact absurd hpower (Nat.not_le.2 (Nat.pow_pos (by decide)))
  refine ⟨hd, ?_⟩
  have htwo : twoTo places < twoTo (d.log2 + 11) :=
    calc twoTo places ≤ tenTo places := Nat.pow_le_pow_left (by decide) places
      _ ≤ 1000 * d := hpower
      _ < 1000 * twoTo (d.log2 + 1) := Nat.mul_lt_mul_of_pos_left (lt_twoTo_log2 d) (by decide)
      _ ≤ twoTo 10 * twoTo (d.log2 + 1) := Nat.mul_le_mul_right _ (by decide)
      _ = twoTo (d.log2 + 11) := by rw [← twoTo_add, Nat.add_comm 10]
  have hplaces : places < d.log2 + 11 := (Nat.pow_lt_pow_iff_right (by decide)).1 htwo
  omega

theorem milliOfCores?_of_decimal {d places : Nat} (hn : n ≤ word32Max)
    (h : 1000 * d = n * tenTo places) :
    milliOfCores? (Decimal.toBinary64 ⟨false, d, -places⟩) = some n := by
  rcases Nat.eq_zero_or_pos n with rfl | hpos
  · obtain rfl : d = 0 := by omega
    have hzero : Decimal.toBinary64 ⟨false, 0, -places⟩ = .finite false 0 minExponent := rfl
    rw [hzero]
    decide +kernel
  · obtain ⟨hd, hplaces⟩ := large_of_thousandths hpos h
    have hten : tenTo places ≠ 0 := Nat.ne_of_gt (Nat.pow_pos (by decide))
    have hquotient : (d / tenTo places : ℚ) = n / 1000 := by
      rw [div_eq_div_iff (by exact_mod_cast hten) (by norm_num), mul_comm (d : ℚ)]
      exact_mod_cast h
    obtain ⟨hone, hmax⟩ := cast_bounds hpos hn
    have hnear := near_ofQuotient_of_moderate hten (by rw [hquotient]; linarith)
      (by rw [hquotient]; linarith)
    rw [hquotient] at hnear
    rw [toBinary64_places hd hplaces]
    exact milliOfCores?_of_near hpos hn hnear

/-! ## Texts -/

/-- Digits and perhaps a point and more digits, with white space around them or not. -/
structure WrittenCores (text : String) (whole : List Char) (fraction : Option (List Char)) :
    Prop where
  ne_nil : whole ≠ []
  digits_whole : ∀ c ∈ whole, isDigit c = true
  digits_fraction : ∀ c ∈ fraction.getD [], isDigit c = true
  surrounded : ∃ before after, text.toList = before ++ (whole ++ behindPoint fraction) ++ after ∧
    (∀ c ∈ before, isBlank c = true) ∧ ∀ c ∈ after, isBlank c = true

variable {text : String} {number whole : List Char} {fraction : Option (List Char)}

theorem milliCpu?_of_written (h : Written text number "m") :
    milliCpu? text = if ofDigits number ≤ word32Max then some (ofDigits number) else none := by
  obtain ⟨hne, hdigits, before, after, htext, hbefore, hafter⟩ := h
  have hplain : ∀ c ∈ number ++ "m".toList, isBlank c = false :=
    List.forall_mem_append.2 ⟨fun c hc => isBlank_of_isDigit (hdigits c hc),
      List.forall_mem_singleton.2 rfl⟩
  have hsuffix : dropSuffix? ['m'] (number ++ "m".toList) = some number :=
    dropSuffix?_append number ['m']
  rw [milliCpu?, htext, trim_surrounded hbefore hafter hplain (by simp [hne]), readMilli?, hsuffix]
  exact readUpTo?_of_digits word32Max hne hdigits

theorem milliCpu?_of_writtenCores (h : WrittenCores text whole fraction) :
    milliCpu? text = milliOfCores? (Decimal.toBinary64
      ⟨false, ofDigits (whole ++ fraction.getD []), -(fraction.getD []).length⟩) := by
  obtain ⟨hne, hwhole, hfraction, before, after, htext, hbefore, hafter⟩ := h
  have hchars := isDigit_or_eq_point hwhole hfraction
  have hplain : ∀ c ∈ whole ++ behindPoint fraction, isBlank c = false := by
    intro c hc
    rcases hchars c hc with hdigit | rfl
    · exact isBlank_of_isDigit hdigit
    · rfl
  have hsuffix : dropSuffix? ['m'] (whole ++ behindPoint fraction) = none := by
    refine dropSuffix?_of_notMem fun hm => ?_
    rcases hchars 'm' hm with hdigit | heq
    · cases hdigit
    · cases heq
  rw [milliCpu?, htext, trim_surrounded hbefore hafter hplain (by simp [hne]), readMilli?, hsuffix,
    readLiteral?_of_decimal hne hwhole hfraction]
  rfl

/-- Up to the largest number of thirty-two bits the digits of `n` followed by the letter, and a
decimal number of cores that makes up `n` thousandths, denote the same amount, whatever zeros they
are written with. -/
theorem notations_agree (hn : n ≤ word32Max) :
    (∀ text number, Written text number "m" → ofDigits number = n → milliCpu? text = some n) ∧
    (∀ text whole fraction, WrittenCores text whole fraction →
      1000 * ofDigits (whole ++ fraction.getD []) = n * tenTo (fraction.getD []).length →
      milliCpu? text = some n) := by
  constructor
  · rintro text number htext rfl
    rw [milliCpu?_of_written htext, if_pos hn]
  · intro text whole fraction htext hvalue
    rw [milliCpu?_of_writtenCores htext, milliOfCores?_of_decimal hn hvalue]

theorem largest_notations_agree :
    milliCpu? "\t04294967295m" = some word32Max ∧ milliCpu? " 004294967.295\n" = some word32Max ∧
    milliCpu? "0.9990" = some 999 := by
  have hthousandths : Written "\t04294967295m" "04294967295".toList "m" :=
    ⟨by decide, List.all_eq_true.1 (by decide), ['\t'], [], rfl, List.all_eq_true.1 (by decide),
      by simp⟩
  have hcores : WrittenCores " 004294967.295\n" "004294967".toList (some "295".toList) :=
    ⟨by decide, List.all_eq_true.1 (by decide), List.all_eq_true.1 (by decide), [' '], ['\n'], rfl,
      List.all_eq_true.1 (by decide), List.all_eq_true.1 (by decide)⟩
  have hsmall : WrittenCores "0.9990" "0".toList (some "9990".toList) :=
    ⟨by decide, List.all_eq_true.1 (by decide), List.all_eq_true.1 (by decide), [], [], rfl,
      by simp, by simp⟩
  obtain ⟨hmilli, hlargest⟩ := notations_agree (Nat.le_refl word32Max)
  refine ⟨hmilli _ _ hthousandths rfl, hlargest _ _ _ hcores rfl, ?_⟩
  exact (notations_agree (by decide)).2 _ _ _ hsmall rfl

end Quantity

end BufferLedger
