import BufferLedger.Proofs.Digits
import BufferLedger.Proofs.Rounding
import BufferLedger.Quantity.Memory

/-!
# Whole numbers of bytes

A number that is written with digits alone, with a suffix or not, is read exactly as far as
sixty-four bits go (`Quantity.whole_bytes_exact_iff`). A run of digits past sixty-four bits goes
through binary64. There `2 ^ 64` is the nearest number up to `2 ^ 64 + 2 ^ 11`, and it still counts
as the largest number of bytes; whatever is larger, or is multiplied, is past it after both
roundings.
-/

namespace BufferLedger

namespace Binary64

variable {n : Nat}

theorem scaled_whole (n : Nat) : scaled n 1 12 = (n, twoTo 12) := by
  simp [scaled]

theorem exponentOf_whole (hn : n ≠ 0) (hlow : twoTo 64 ≤ n) (hhigh : n < twoTo 65) :
    exponentOf n 1 = 12 := by
  have hlog : n.log2 = 64 := (Nat.log2_eq_iff hn).2 ⟨hlow, hhigh⟩
  have he : (n.log2 : Int) - (Nat.log2 1 : Nat) - 52 = 12 := by
    rw [hlog]
    rfl
  simp only [exponentOf, he, scaled_whole]
  rw [if_neg]
  · rfl
  · rw [Nat.not_lt, ← twoTo_add]
    exact hlow

theorem ofNat_of_near (hlow : twoTo 64 ≤ n) (hhigh : n ≤ twoTo 64 + twoTo 11) :
    ofNat n = .finite false (twoTo 52) 12 := by
  have hn : n ≠ 0 := Nat.ne_of_gt (Nat.lt_of_lt_of_le (twoTo_pos 64) hlow)
  have hround : roundHalfEven n (twoTo 12) = twoTo 52 := by
    apply Nat.le_antisymm
    · refine roundHalfEven_le_of_even (by decide) (by decide) ?_
      simp only [twoTo, Nat.pow_eq, Nat.reducePow] at hhigh ⊢
      omega
    · exact le_roundHalfEven (by decide) hlow
  obtain ⟨m, e, hx, hrounded⟩ := ofQuotient_rounded 1 false hn
  rw [exponentOf_whole hn hlow (Nat.lt_of_le_of_lt hhigh (by decide)), scaled_whole, hround]
    at hrounded
  rcases hrounded with hrounded | ⟨hfull, -⟩
  · cases hrounded
    rw [ofNat, hx, if_neg (by decide)]
  · exact absurd hfull (by decide)

theorem atLeast_of_above (h : twoTo 64 + twoTo 11 < n) :
    AtLeast ((twoTo 52 + 1) * twoTo 12 : Nat) (ofNat n) := by
  by_cases hhigh : n < twoTo 65
  · have hn : n ≠ 0 := Nat.ne_of_gt (Nat.lt_of_le_of_lt (Nat.zero_le _) h)
    have hround : twoTo 52 + 1 ≤ roundHalfEven n (twoTo 12) := by
      refine lt_roundHalfEven (by decide) ?_
      simp only [twoTo, Nat.pow_eq, Nat.reducePow] at h ⊢
      omega
    obtain ⟨m, e, hx, -, hm⟩ := ofQuotient_amount 1 false hn
    rw [exponentOf_whole hn (by omega) hhigh, scaled_whole] at hm
    rw [ofNat, hx]
    split
    · trivial
    · rw [AtLeast, hm, cast_mul_twoTo, Nat.cast_ofNat]
      gcongr
  · have hlarge : AtLeast (1 * twoTo 65 : Nat) (ofNat n) := atLeast_ofNat (by decide) (by omega)
    exact hlarge.mono (by exact_mod_cast (by decide : (twoTo 52 + 1) * twoTo 12 ≤ 1 * twoTo 65))

end Binary64

namespace Quantity

open Text Binary64

variable {n multiplier : Nat} {number : List Char} {x : Binary64}

/-! ## Suffixes -/

theorem splitSuffix_of_digits (hne : number ≠ []) (hdigits : ∀ c ∈ number, isDigit c = true) :
    splitSuffix number = (number, 1) := by
  obtain ⟨init, d, rfl⟩ := (List.eq_nil_or_concat number).resolve_left hne
  have hd : isDigit d = true := hdigits d (by simp)
  have hletter (l : Char) (hl : isDigit l = false) : l ≠ d := ne_of_isDigit hd hl
  simp [splitSuffix, byteSuffixes, dropSuffix?, List.isSuffixOf, hletter 'i' rfl, hletter 'k' rfl,
    hletter 'M' rfl, hletter 'G' rfl, hletter 'T' rfl, hletter 'P' rfl, hletter 'E' rfl]

theorem splitSuffix_append {suffix : String} {multiplier : Nat}
    (h : (suffix, multiplier) ∈ byteSuffixes) :
    splitSuffix (number ++ suffix.toList) = (number, multiplier) := by
  simp only [byteSuffixes, List.mem_cons, Prod.mk.injEq, List.not_mem_nil, or_false] at h
  rcases h with ⟨rfl, rfl⟩ | ⟨rfl, rfl⟩ | ⟨rfl, rfl⟩ | ⟨rfl, rfl⟩ | ⟨rfl, rfl⟩ | ⟨rfl, rfl⟩ |
    ⟨rfl, rfl⟩ | ⟨rfl, rfl⟩ | ⟨rfl, rfl⟩ | ⟨rfl, rfl⟩ | ⟨rfl, rfl⟩ | ⟨rfl, rfl⟩
  all_goals simp [splitSuffix, byteSuffixes, dropSuffix?, List.isSuffixOf]

theorem plain_of_mem {suffix : String} {multiplier : Nat}
    (h : (suffix, multiplier) ∈ ("", 1) :: byteSuffixes) :
    ∀ c ∈ suffix.toList, isBlank c = false := by
  have hall : ∀ s ∈ ("", 1) :: byteSuffixes, (s.1.toList.all fun c => !isBlank c) = true := by
    decide
  simpa using hall _ h

theorem of_mem_byteSuffixes {suffix : String} {multiplier : Nat}
    (h : (suffix, multiplier) ∈ byteSuffixes) : suffix ≠ "" ∧ 2 ≤ multiplier := by
  have hall : ∀ s ∈ byteSuffixes, s.1 ≠ "" ∧ 2 ≤ s.2 := by decide
  exact hall _ h

/-! ## Past sixty-four bits -/

theorem bytes_of_atLeast {b : Nat} (h : AtLeast b x) (hb : twoTo 64 < b) :
    x.round?.bind capBytes? = none := by
  cases hr : x.round? with
  | none => rfl
  | some r =>
    have hle := h.le_of_round? hr
    rw [Option.bind_some, capBytes?, if_neg]
    omega

theorem bytes_of_near (hlow : word64Max < n) (hhigh : n ≤ twoTo 64 + twoTo 11) :
    ((ofNat n).mul (ofNat 1)).round?.bind capBytes? = some word64Max := by
  rw [ofNat_of_near hlow hhigh]
  decide +kernel

theorem bytes_of_above (h : twoTo 64 + twoTo 11 < n) :
    ((ofNat n).mul (ofNat 1)).round?.bind capBytes? = none := by
  have hone : AtLeast (1 * twoTo 0 : Nat) (ofNat 1) := atLeast_ofNat (by decide) (by decide)
  have hproduct : AtLeast ((twoTo 52 + 1) * twoTo 12 : Nat) ((ofNat n).mul (ofNat 1)) :=
    (atLeast_of_above h).mul hone (by norm_num [twoTo]) (by norm_num [twoTo]) (by decide)
      (by norm_num [twoTo])
  exact bytes_of_atLeast hproduct (by decide)

theorem bytes_of_multiple (hlow : word64Max < n) (hm : 2 ≤ multiplier) :
    ((ofNat n).mul (ofNat multiplier)).round?.bind capBytes? = none := by
  have hn : AtLeast (1 * twoTo 64 : Nat) (ofNat n) := atLeast_ofNat (by decide) hlow
  have hmultiplier : AtLeast (1 * twoTo 1 : Nat) (ofNat multiplier) :=
    atLeast_ofNat (by decide) hm
  have hproduct : AtLeast (1 * twoTo 65 : Nat) ((ofNat n).mul (ofNat multiplier)) :=
    hn.mul hmultiplier (by norm_num [twoTo]) (by norm_num [twoTo]) (by decide)
      (by norm_num [twoTo])
  exact bytes_of_atLeast hproduct (by decide)

/-! ## Digits and a suffix -/

theorem readBytes?_of_digits (hne : number ≠ [])
    (hdigits : ∀ c ∈ number, isDigit c = true) :
    readBytes? number multiplier =
      if ofDigits number ≤ word64Max then
        if ofDigits number * multiplier ≤ word64Max then some (ofDigits number * multiplier)
        else none
      else ((ofNat (ofDigits number)).mul (ofNat multiplier)).round?.bind capBytes? := by
  rw [readBytes?, readUpTo?_of_digits word64Max hne hdigits, readLiteral?_of_digits hne hdigits,
    toBinary64_whole]
  by_cases hsmall : ofDigits number ≤ word64Max
  · simp [hsmall]
  · simp [hsmall]

/-- Digits and perhaps a suffix, with white space around them or not. -/
structure Written (text : String) (number : List Char) (suffix : String) : Prop where
  ne_nil : number ≠ []
  digits : ∀ c ∈ number, isDigit c = true
  surrounded : ∃ before after, text.toList = before ++ (number ++ suffix.toList) ++ after ∧
    (∀ c ∈ before, isBlank c = true) ∧ ∀ c ∈ after, isBlank c = true

variable {text suffix : String}

theorem bytes?_of_written (h : Written text number suffix)
    (hsuffix : (suffix, multiplier) ∈ ("", 1) :: byteSuffixes) :
    bytes? text = readBytes? number multiplier := by
  obtain ⟨hne, hdigits, before, after, htext, hbefore, hafter⟩ := h
  have hplain : ∀ c ∈ number ++ suffix.toList, isBlank c = false :=
    List.forall_mem_append.2 ⟨fun c hc => isBlank_of_isDigit (hdigits c hc),
      plain_of_mem hsuffix⟩
  have hsplit : splitSuffix (number ++ suffix.toList) = (number, multiplier) := by
    rcases List.mem_cons.1 hsuffix with heq | hmem
    · cases heq
      simpa using splitSuffix_of_digits hne hdigits
    · exact splitSuffix_append hmem
  rw [bytes?, htext, trim_surrounded hbefore hafter hplain (by simp [hne]), hsplit]

/-- A whole number of bytes is read exactly, or not at all if it does not fit into sixty-four bits,
but for a number without a suffix that is past them and rounds to `2 ^ 64`: that is taken for the
largest number of bytes. -/
theorem whole_bytes_exact_iff (h : Written text number suffix)
    (hsuffix : (suffix, multiplier) ∈ ("", 1) :: byteSuffixes) :
    (bytes? text =
        (if ofDigits number * multiplier ≤ word64Max then some (ofDigits number * multiplier)
        else none) ↔
      ¬ (suffix = "" ∧ word64Max < ofDigits number ∧ ofDigits number ≤ twoTo 64 + twoTo 11)) ∧
    (suffix = "" → word64Max < ofDigits number → ofDigits number ≤ twoTo 64 + twoTo 11 →
      bytes? text = some word64Max) := by
  rw [bytes?_of_written h hsuffix, readBytes?_of_digits h.ne_nil h.digits]
  generalize ofDigits number = n
  by_cases hsmall : n ≤ word64Max
  · simp [hsmall, Nat.not_lt.2 hsmall]
  have hlarge : word64Max < n := Nat.lt_of_not_le hsmall
  rw [if_neg hsmall]
  rcases List.mem_cons.1 hsuffix with heq | hmem
  · cases heq
    rw [if_neg (by omega)]
    by_cases hnear : n ≤ twoTo 64 + twoTo 11
    · simp [bytes_of_near hlarge hnear, hlarge, hnear]
    · simp [bytes_of_above (Nat.lt_of_not_le hnear), hnear]
  · obtain ⟨hsome, hmultiplier⟩ := of_mem_byteSuffixes hmem
    have hproduct : ¬ n * multiplier ≤ word64Max := by
      have hle : n * 1 ≤ n * multiplier := Nat.mul_le_mul_left n (by omega)
      omega
    simp [bytes_of_multiple hlarge hmultiplier, hproduct, hsome]

theorem exbibytes_exact :
    bytes? " 0015Ei\n" = some (15 * twoTo 60) ∧ bytes? "16Ei" = none := by
  have hlow : Written " 0015Ei\n" "0015".toList "Ei" :=
    ⟨by decide, List.all_eq_true.1 (by decide), [' '], ['\n'], rfl,
      List.all_eq_true.1 (by decide), List.all_eq_true.1 (by decide)⟩
  have hhigh : Written "16Ei" "16".toList "Ei" :=
    ⟨by decide, List.all_eq_true.1 (by decide), [], [], rfl, by simp, by simp⟩
  have hsuffix : ("Ei", twoTo 60) ∈ ("", 1) :: byteSuffixes := by decide
  have hfifteen : ofDigits "0015".toList = 15 := rfl
  have hsixteen : ofDigits "16".toList = 16 := rfl
  constructor
  · rw [(whole_bytes_exact_iff hlow hsuffix).1.2 (by decide), hfifteen, if_pos (by decide)]
  · rw [(whole_bytes_exact_iff hhigh hsuffix).1.2 (by decide), hsixteen, if_neg (by decide)]

/-- The first number past sixty-four bits. -/
theorem digits_past_word :
    Written "18446744073709551616" "18446744073709551616".toList "" ∧
      word64Max < ofDigits "18446744073709551616".toList ∧
      bytes? "18446744073709551616" = some word64Max := by
  have hdigits : ∀ c ∈ "18446744073709551616".toList, isDigit c = true :=
    List.all_eq_true.1 (by decide)
  refine ⟨⟨by decide, hdigits, [], [], rfl, by simp, by simp⟩, by decide, ?_⟩
  decide +kernel

end Quantity

end BufferLedger
