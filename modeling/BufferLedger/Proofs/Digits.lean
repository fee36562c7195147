import BufferLedger.Binary64.Decimal
import BufferLedger.Text.Blank
import Mathlib.Data.List.TakeWhile

/-!
# Runs of digits

What the readers of numbers make of a text of digits alone, and what is left of a text once the
white space around it is dropped.
-/

namespace BufferLedger

namespace Text

variable {cs before after : List Char} {c : Char}

theorem isBlank_of_isDigit (h : isDigit c = true) : isBlank c = false := by
  obtain ⟨hzero, hnine⟩ : '0' ≤ c ∧ c ≤ '9' := by simpa [isDigit] using h
  have hlow : 48 ≤ c.toNat := UInt32.le_iff_toNat_le.1 hzero
  have hhigh : c.toNat ≤ 57 := UInt32.le_iff_toNat_le.1 hnine
  simp only [isBlank, Bool.or_eq_false_iff, Bool.and_eq_false_iff, decide_eq_false_iff_not,
    beq_eq_false_iff_ne]
  omega

theorem dropWhile_isBlank (hbefore : ∀ c ∈ before, isBlank c = true)
    (hcs : ∀ c ∈ cs, isBlank c = false) (hne : cs ≠ []) :
    (before ++ cs ++ after).dropWhile isBlank = cs ++ after := by
  obtain ⟨c, rest, rfl⟩ := List.exists_cons_of_ne_nil hne
  have hc : isBlank c = false := hcs c (List.mem_cons_self ..)
  rw [List.append_assoc, List.dropWhile_append_of_pos hbefore]
  simp [hc]

theorem trim_surrounded (hbefore : ∀ c ∈ before, isBlank c = true)
    (hafter : ∀ c ∈ after, isBlank c = true) (hcs : ∀ c ∈ cs, isBlank c = false) (hne : cs ≠ []) :
    trim (before ++ cs ++ after) = cs := by
  have hend : (after.reverse ++ cs.reverse ++ []).dropWhile isBlank = cs.reverse ++ [] :=
    dropWhile_isBlank (by simpa using hafter) (by simpa using hcs) (by simpa using hne)
  rw [trim, trimStart, dropWhile_isBlank hbefore hcs hne, trimEnd, List.reverse_append]
  simpa using congrArg List.reverse hend

theorem dropSuffix?_append (cs suffix : List Char) :
    dropSuffix? suffix (cs ++ suffix) = some cs := by
  have hsuffix : suffix.isSuffixOf (cs ++ suffix) = true :=
    List.isSuffixOf_iff_suffix.2 (List.suffix_append ..)
  simp [dropSuffix?, hsuffix]

theorem dropSuffix?_of_notMem (h : c ∉ cs) : dropSuffix? [c] cs = none := by
  rw [dropSuffix?, if_neg]
  intro hsuffix
  exact h ((List.isSuffixOf_iff_suffix.1 hsuffix).mem (List.mem_singleton_self c))

theorem ne_of_isDigit {l : Char} (hc : isDigit c = true) (hl : isDigit l = false) : l ≠ c := by
  rintro rfl
  rw [hl] at hc
  cases hc

theorem readNatural?_of_digits (hne : cs ≠ []) (hdigits : ∀ c ∈ cs, isDigit c = true) :
    readNatural? cs = some (ofDigits cs) := by
  obtain ⟨c, rest, rfl⟩ := List.exists_cons_of_ne_nil hne
  have hplus : '+' ≠ c := ne_of_isDigit (hdigits c (List.mem_cons_self ..)) rfl
  have hall : (c :: rest).all isDigit = true := List.all_eq_true.2 hdigits
  rw [readNatural?]
  · simp [hall]
  · rintro cs' ⟨⟩
    exact hplus rfl

theorem readUpTo?_of_digits (limit : Nat) (hne : cs ≠ [])
    (hdigits : ∀ c ∈ cs, isDigit c = true) :
    readUpTo? limit cs = if ofDigits cs ≤ limit then some (ofDigits cs) else none := by
  simp [readUpTo?, readNatural?_of_digits hne hdigits, Option.filter_some]

def behindPoint : Option (List Char) → List Char
  | none => []
  | some ds => '.' :: ds

theorem isDigit_or_eq_point {whole : List Char} {fraction : Option (List Char)}
    (hwhole : ∀ c ∈ whole, isDigit c = true)
    (hfraction : ∀ c ∈ fraction.getD [], isDigit c = true) :
    ∀ c ∈ whole ++ behindPoint fraction, isDigit c = true ∨ c = '.' := by
  refine List.forall_mem_append.2 ⟨fun c hc => .inl (hwhole c hc), ?_⟩
  cases fraction with
  | none => simp [behindPoint]
  | some ds => exact List.forall_mem_cons.2 ⟨.inr rfl, fun c hc => .inl (hfraction c hc)⟩

end Text

namespace Binary64

open Text

theorem splitSign_of_isDigit {c : Char} (rest : List Char) (hc : isDigit c = true) :
    Decimal.splitSign (c :: rest) = (false, c :: rest) := by
  rw [Decimal.splitSign]
  · rintro cs' ⟨⟩
    exact ne_of_isDigit hc rfl rfl
  · rintro cs' ⟨⟩
    exact ne_of_isDigit hc rfl rfl

/-- Digits and perhaps a point and more digits: the digits together, divided by ten for each one
behind the point. -/
theorem readLiteral?_of_decimal {whole : List Char} {fraction : Option (List Char)}
    (hne : whole ≠ []) (hwhole : ∀ c ∈ whole, isDigit c = true)
    (hfraction : ∀ c ∈ fraction.getD [], isDigit c = true) :
    readLiteral? (whole ++ behindPoint fraction) = some (Decimal.toBinary64
      ⟨false, ofDigits (whole ++ fraction.getD []), -(fraction.getD []).length⟩) := by
  have hsign : Decimal.splitSign (whole ++ behindPoint fraction) =
      (false, whole ++ behindPoint fraction) := by
    obtain ⟨c, rest, rfl⟩ := List.exists_cons_of_ne_nil hne
    exact splitSign_of_isDigit _ (hwhole c (List.mem_cons_self ..))
  have hread : Decimal.readUnsigned? false (whole ++ behindPoint fraction) =
      some ⟨false, ofDigits (whole ++ fraction.getD []), -(fraction.getD []).length⟩ := by
    have hpoint : isDigit '.' = false := rfl
    unfold Decimal.readUnsigned?
    rw [List.takeWhile_append_of_pos hwhole, List.dropWhile_append_of_pos hwhole]
    cases fraction with
    | none => simp [behindPoint, hne]
    | some ds =>
      have htake : ds.takeWhile isDigit = ds := List.takeWhile_eq_self_iff.2 hfraction
      have hdrop : ds.dropWhile isDigit = [] := List.dropWhile_eq_nil_iff.2 hfraction
      simp [behindPoint, hpoint, htake, hdrop, hne]
  simp only [readLiteral?, hsign, hread]

theorem readLiteral?_of_digits {cs : List Char} (hne : cs ≠ [])
    (hdigits : ∀ c ∈ cs, isDigit c = true) :
    readLiteral? cs = some (Decimal.toBinary64 ⟨false, ofDigits cs, 0⟩) := by
  have hread := readLiteral?_of_decimal hne hdigits
    (show ∀ c ∈ (none : Option (List Char)).getD [], isDigit c = true by simp)
  simpa [behindPoint] using hread

theorem toBinary64_whole (n : Nat) : Decimal.toBinary64 ⟨false, n, 0⟩ = ofNat n := by
  by_cases hn : n = 0
  · subst hn
    rfl
  · have hlow : ¬ (n.log2 : Int) + 1 < -399 := by omega
    simp [Decimal.toBinary64, hn, hlow, ofNat, tenTo]

theorem toBinary64_places {n places : Nat} (hn : n ≠ 0) (h : places ≤ n.log2 + 400) :
    Decimal.toBinary64 ⟨false, n, -places⟩ = ofQuotient false n (tenTo places) := by
  unfold Decimal.toBinary64
  dsimp only
  rw [if_neg hn, if_neg (by omega), if_neg (by omega)]
  split
  · obtain rfl : places = 0 := by omega
    simp [tenTo]
  · simp

end Binary64

end BufferLedger
