import BufferLedger.Json.Document

/-!
# The numbers of a document are finite

A number that is too large denotes nothing, so that every number of a document that was read from
a text is finite (`Json.finite_read`). On the way to its value a literal is a quotient that is
rounded three times at most, and the quotients stay far below the largest number
(`Binary64.Bounded`), but for a product, which is checked.
-/

namespace BufferLedger

open Text

/-! ## Powers -/

theorem tenTo_le {m n : Nat} (h : m ≤ n) : tenTo m ≤ tenTo n :=
  Nat.pow_le_pow_right (by decide) h

theorem twoTo_pos (n : Nat) : 0 < twoTo n :=
  Nat.two_pow_pos n

theorem twoTo_add (m n : Nat) : twoTo (m + n) = twoTo m * twoTo n :=
  Nat.pow_add 2 m n

theorem twoTo_le {m n : Nat} (h : m ≤ n) : twoTo m ≤ twoTo n :=
  Nat.pow_le_pow_right (by decide) h

theorem lt_twoTo_log2 (n : Nat) : n < twoTo (n.log2 + 1) :=
  Nat.lt_log2_self

theorem twoTo_log2_le {n : Nat} (h : n ≠ 0) : twoTo n.log2 ≤ n :=
  Nat.log2_self_le h

namespace Binary64

/-! ## Quotients

The exponent is chosen by the number of bits, so that what is rounded is below `2 ^ 54`, and not
below one unless the quotient is. -/

theorem roundHalfEven_le (num den : Nat) : roundHalfEven num den ≤ num / den + 1 := by
  unfold roundHalfEven
  dsimp only
  split <;> omega

theorem exponentOf_bounds (num den : Nat) :
    (num.log2 : Int) - den.log2 - 53 ≤ exponentOf num den ∧
      exponentOf num den ≤ max minExponent ((num.log2 : Int) - den.log2 - 52) := by
  unfold exponentOf
  dsimp only
  split <;> omega

theorem scaled_lt {num den : Nat} {e : Int} (hden : den ≠ 0)
    (he : (num.log2 : Int) - den.log2 - 53 ≤ e) :
    (scaled num den e).1 / (scaled num den e).2 < twoTo 54 := by
  have hnum := lt_twoTo_log2 num
  have hlow := twoTo_log2_le hden
  unfold scaled
  split
  · refine Nat.div_lt_of_lt_mul ?_
    calc num < twoTo (num.log2 + 1) := hnum
      _ ≤ twoTo (den.log2 + e.toNat + 54) := twoTo_le (by omega)
      _ = twoTo den.log2 * twoTo e.toNat * twoTo 54 := by rw [twoTo_add, twoTo_add]
      _ ≤ den * twoTo e.toNat * twoTo 54 := Nat.mul_le_mul_right _ (Nat.mul_le_mul_right _ hlow)
  · refine Nat.div_lt_of_lt_mul ?_
    calc num * twoTo (-e).toNat < twoTo (num.log2 + 1) * twoTo (-e).toNat :=
          Nat.mul_lt_mul_of_pos_right hnum (twoTo_pos _)
      _ = twoTo (num.log2 + 1 + (-e).toNat) := (twoTo_add ..).symm
      _ ≤ twoTo (den.log2 + 54) := twoTo_le (by omega)
      _ = twoTo den.log2 * twoTo 54 := twoTo_add ..
      _ ≤ den * twoTo 54 := Nat.mul_le_mul_right _ hlow

theorem scaled_le {num den : Nat} {e : Int} (hle : den ≤ num) (hden : den ≠ 0)
    (he : e ≤ max minExponent ((num.log2 : Int) - den.log2 - 52)) :
    (scaled num den e).2 ≤ (scaled num den e).1 := by
  unfold scaled
  split
  · have hsum : den.log2 + 1 + e.toNat ≤ num.log2 := by
      simp only [minExponent] at he
      omega
    calc den * twoTo e.toNat ≤ twoTo (den.log2 + 1) * twoTo e.toNat :=
          Nat.mul_le_mul_right _ (Nat.le_of_lt (lt_twoTo_log2 den))
      _ = twoTo (den.log2 + 1 + e.toNat) := (twoTo_add ..).symm
      _ ≤ twoTo num.log2 := twoTo_le hsum
      _ ≤ num := twoTo_log2_le (by omega)
  · exact Nat.le_trans hle (Nat.le_mul_of_pos_right _ (twoTo_pos _))

theorem roundHalfEven_ne_zero {num den : Nat} (hle : den ≤ num) (hden : den ≠ 0) :
    roundHalfEven num den ≠ 0 := by
  have hquotient : 0 < num / den := Nat.div_pos hle (Nat.pos_of_ne_zero hden)
  unfold roundHalfEven
  dsimp only
  split <;> omega

theorem scaled_ne_zero (num : Nat) {den : Nat} (e : Int) (hden : den ≠ 0) :
    (scaled num den e).2 ≠ 0 := by
  unfold scaled
  split
  · exact Nat.mul_ne_zero hden (Nat.ne_of_gt (twoTo_pos _))
  · exact hden

theorem ofQuotient_rounded {num : Nat} (den : Nat) (negative : Bool) (hnum : num ≠ 0) :
    ∃ m e, ofQuotient negative num den =
        (if maxExponent < e then .infinity negative else .finite negative m e) ∧
      ((m, e) = (roundHalfEven (scaled num den (exponentOf num den)).1
          (scaled num den (exponentOf num den)).2, exponentOf num den) ∨
        roundHalfEven (scaled num den (exponentOf num den)).1
          (scaled num den (exponentOf num den)).2 = twoTo 53 ∧
        (m, e) = (twoTo 52, exponentOf num den + 1)) := by
  obtain ⟨x, hx⟩ : ∃ x, ofQuotient negative num den = x := ⟨_, rfl⟩
  rw [hx]
  unfold ofQuotient at hx
  rw [if_neg hnum] at hx
  extract_lets e at hx
  split at hx
  rename_i n d hscaled
  rw [show scaled num den (exponentOf num den) = (n, d) from hscaled]
  extract_lets m at hx
  split at hx
  rename_i m' e' hrounded
  refine ⟨m', e', hx.symm, ?_⟩
  split at hrounded
  · exact .inr ⟨‹_›, hrounded.symm⟩
  · exact .inl hrounded.symm

theorem ofQuotient_eq {num den : Nat} (negative : Bool) (hnum : num ≠ 0) (hden : den ≠ 0) :
    ∃ m e, ofQuotient negative num den =
        (if maxExponent < e then .infinity negative else .finite negative m e) ∧
      exponentOf num den ≤ e ∧ e ≤ exponentOf num den + 1 ∧ m ≤ twoTo 54 ∧
      (den ≤ num → m ≠ 0) := by
  obtain ⟨hlow, hhigh⟩ := exponentOf_bounds num den
  have hlt := scaled_lt hden hlow
  have hle (h : den ≤ num) := scaled_le h hden hhigh
  have hd := scaled_ne_zero num (exponentOf num den) hden
  obtain ⟨m, e, hx, hrounded | ⟨-, hrounded⟩⟩ := ofQuotient_rounded den negative hnum
  · cases hrounded
    refine ⟨_, _, hx, Int.le_refl _, by omega, ?_, fun h => roundHalfEven_ne_zero (hle h) hd⟩
    exact Nat.le_trans (roundHalfEven_le _ _) hlt
  · cases hrounded
    exact ⟨_, _, hx, by omega, Int.le_refl _, by decide, fun _ => by decide⟩

/-! ## Numbers far below the largest one -/

/-- A finite number with a significand of at most `2 ^ 54` and at most the given exponent. -/
def Bounded (b : Int) (x : Binary64) : Prop :=
  ∃ negative m e, x = .finite negative m e ∧ m ≤ twoTo 54 ∧ e ≤ b

theorem Bounded.isFinite {b : Int} {x : Binary64} (h : Bounded b x) : x.isFinite = true := by
  obtain ⟨_, _, _, rfl, -, -⟩ := h
  rfl

theorem bounded_ofQuotient {negative : Bool} {num den k : Nat} {b : Int} (hden : den ≠ 0)
    (hnum : num < twoTo k) (hk : (k : Int) ≤ b + 52) (hzero : 0 ≤ b) (hmax : b ≤ maxExponent) :
    Bounded b (ofQuotient negative num den) := by
  by_cases hpos : num = 0
  · rw [ofQuotient, if_pos hpos]
    exact ⟨_, _, _, rfl, Nat.zero_le _, Int.le_trans (by decide) hzero⟩
  have hlog : num.log2 < k := (Nat.log2_lt hpos).2 hnum
  obtain ⟨-, hexponent⟩ := exponentOf_bounds num den
  obtain ⟨m, e, hx, -, he, hm, -⟩ := ofQuotient_eq negative hpos hden
  have hb : e ≤ b := by
    simp only [minExponent] at hexponent
    omega
  rw [hx, if_neg (Int.not_lt.2 (Int.le_trans hb hmax))]
  exact ⟨_, _, _, rfl, hm, hb⟩

theorem bounded_ofNat {n : Nat} (h : n ≤ word64Max) : Bounded 12 (ofNat n) :=
  bounded_ofQuotient Nat.one_ne_zero (k := 64) (Nat.lt_succ_of_le h) (by decide) (by decide)
    (by decide)

theorem isFinite_ofInt {n : Int} (h : n.natAbs ≤ word64Max) : (ofInt n).isFinite = true :=
  (bounded_ofQuotient Nat.one_ne_zero (k := 64) (b := 12) (Nat.lt_succ_of_le h) (by decide)
    (by decide) (by decide)).isFinite

theorem magnitude_le (m : Nat) (e : Int) : (magnitude m e).1 ≤ m * twoTo e.toNat := by
  unfold magnitude scaled
  split
  · exact Nat.le_mul_of_pos_right _ (twoTo_pos _)
  · exact Nat.le_of_eq (by rw [Int.neg_neg])

theorem magnitude_ne_zero (m : Nat) (e : Int) : (magnitude m e).2 ≠ 0 :=
  scaled_ne_zero m _ Nat.one_ne_zero

/-- A number that is not zero and whose exponent is not too small to divide by. -/
def divides : Binary64 → Bool
  | .finite _ m e => m != 0 && decide (-60 ≤ e)
  | _ => false

theorem divides_ofQuotient {negative : Bool} {num den : Nat} (hle : den ≤ num) (hden : den ≠ 0)
    (hfinite : (ofQuotient negative num den).isFinite = true) :
    (ofQuotient negative num den).divides = true := by
  have hnum : num ≠ 0 := by omega
  have hlog : den.log2 ≤ num.log2 := (Nat.le_log2 hnum).2 (Nat.le_trans (twoTo_log2_le hden) hle)
  obtain ⟨hexponent, -⟩ := exponentOf_bounds num den
  obtain ⟨m, e, hx, he, -, -, hm⟩ := ofQuotient_eq negative hnum hden
  rw [hx] at hfinite ⊢
  split at hfinite
  · cases hfinite
  · rename_i hmax
    rw [if_neg hmax]
    have hlow : -60 ≤ e := by omega
    simp [divides, hm hle, hlow]

theorem Bounded.div {b : Int} {x y : Binary64} (hx : Bounded b x) (hy : y.divides = true)
    (hzero : 0 ≤ b) (hmax : b + 63 ≤ maxExponent) : Bounded (b + 63) (x.div y) := by
  obtain ⟨negative, m, e, rfl, hm, he⟩ := hx
  cases y with
  | nan | infinity negative => cases hy
  | finite negative' m' e' =>
    obtain ⟨hm', he'⟩ : m' ≠ 0 ∧ -60 ≤ e' := by simpa [divides] using hy
    have hnum := magnitude_le m (e - e')
    have hden := magnitude_ne_zero m (e - e')
    rw [Binary64.div, if_neg hm']
    split
    rename_i n d hmagnitude
    rw [hmagnitude] at hnum hden
    refine bounded_ofQuotient (Nat.mul_ne_zero hden hm') (k := 55 + (b + 60).toNat) ?_ (by omega)
      (by omega) hmax
    calc n ≤ m * twoTo (e - e').toNat := hnum
      _ ≤ twoTo 54 * twoTo (b + 60).toNat := Nat.mul_le_mul hm (twoTo_le (by omega))
      _ < twoTo 55 * twoTo (b + 60).toNat := Nat.mul_lt_mul_of_pos_right (by decide) (twoTo_pos _)
      _ = twoTo (55 + (b + 60).toNat) := (twoTo_add ..).symm

theorem isFinite_or_isInfinite_ofQuotient (negative : Bool) (num : Nat) {den : Nat}
    (hden : den ≠ 0) :
    (ofQuotient negative num den).isFinite = true ∨
      (ofQuotient negative num den).isInfinite = true := by
  by_cases hnum : num = 0
  · rw [ofQuotient, if_pos hnum]
    exact .inl rfl
  · obtain ⟨m, e, hx, -⟩ := ofQuotient_eq negative hnum hden
    rw [hx]
    split
    · exact .inr rfl
    · exact .inl rfl

theorem isFinite_mul {x y : Binary64} (hx : x.isFinite = true) (hy : y.isFinite = true)
    (h : (x.mul y).isInfinite = false) : (x.mul y).isFinite = true := by
  cases x with
  | nan | infinity negative => cases hx
  | finite negative m e =>
    cases y with
    | nan | infinity negative => cases hy
    | finite negative' m' e' =>
      have hden := magnitude_ne_zero (m * m') (e + e')
      rw [Binary64.mul] at h ⊢
      split
      rename_i n d hmagnitude
      rw [hmagnitude] at h hden
      exact (isFinite_or_isInfinite_ofQuotient _ n hden).resolve_right (by simpa using h)

theorem isFinite_neg (x : Binary64) : x.neg.isFinite = x.isFinite := by
  cases x <;> rfl

end Binary64

/-! ## Literals -/

namespace NumberLiteral

open Binary64

theorem isFinite_powerOfTen {n : Nat} (h : n ≤ 308) : (powerOfTen n).isFinite = true := by
  rcases Nat.lt_or_eq_of_le h with hlt | rfl
  · have hpower : tenTo n < twoTo 1020 :=
      calc tenTo n ≤ tenTo 307 := tenTo_le (Nat.le_of_lt_succ hlt)
        _ < twoTo 1020 := by decide +kernel
    exact (bounded_ofQuotient Nat.one_ne_zero (b := 968) hpower (by decide) (by decide)
      (by decide)).isFinite
  -- Ten to this power has as many bits as the largest number, and is rounded to a smaller one.
  · decide +kernel

theorem divides_powerOfTen {n : Nat} (h : n ≤ 308) : (powerOfTen n).divides = true :=
  divides_ofQuotient (Nat.pow_pos (by decide)) Nat.one_ne_zero (isFinite_powerOfTen h)

theorem scaleByTen_finite {x y : Binary64} {e : Int} (hx : Bounded 12 x)
    (h : scaleByTen x e = some y) : y.isFinite = true := by
  unfold scaleByTen at h
  split at h
  · split at h <;> cases h
    exact hx.isFinite
  · split at h
    · extract_lets z at h
      split at h
      · cases h
      · rename_i hinf
        rw [← Option.some.inj h]
        exact isFinite_mul hx.isFinite (isFinite_powerOfTen (by omega)) (by simpa using hinf)
    · split at h
      · cases h
        exact (hx.div (divides_powerOfTen (by omega)) (by decide) (by decide)).isFinite
      · split at h
        · cases h
          have hfirst := hx.div (divides_powerOfTen (Nat.le_refl 308)) (by decide) (by decide)
          exact (hfirst.div (divides_powerOfTen (by omega)) (by decide) (by decide)).isFinite
        · cases h
          rfl

theorem gatherWhole_le {s : Nat} (cs : List Char) (h : s ≤ word64Max) :
    (gatherWhole s cs).significand ≤ word64Max := by
  induction cs generalizing s with
  | nil => exact h
  | cons c cs ih =>
    simp only [gatherWhole]
    split
    · exact ih (by simpa [fits] using ‹fits s c = true›)
    · exact h

theorem gatherFraction_le {g : Gathered} (cs : List Char) (h : g.significand ≤ word64Max) :
    (gatherFraction g cs).significand ≤ word64Max := by
  induction cs generalizing g with
  | nil => exact h
  | cons c cs ih =>
    simp only [gatherFraction]
    split
    · exact ih (by simpa [fits] using ‹fits g.significand c = true›)
    · exact h

theorem toFloat_finite {l : NumberLiteral} {x : Binary64} (h : l.toFloat? = some x) :
    x.isFinite = true := by
  unfold toFloat? at h
  obtain ⟨y, hy, rfl⟩ := Option.map_eq_some_iff.1 h
  have hsignificand := gatherFraction_le (l.fraction.getD [])
    (gatherWhole_le l.whole (Nat.zero_le _))
  have hfinite := scaleByTen_finite (bounded_ofNat hsignificand) hy
  split
  · rw [isFinite_neg, hfinite]
  · exact hfinite

end NumberLiteral

namespace Json

mutual

def finite : Json → Bool
  | .whole n => n.natAbs ≤ word64Max
  | .float x => x.isFinite
  | .array items _ => finiteItems items
  | .object entries _ => finiteEntries entries
  | .nested j => finite j
  | _ => true

def finiteItems : List Json → Bool
  | [] => true
  | j :: rest => finite j && finiteItems rest

def finiteEntries : List (Option String × Json) → Bool
  | [] => true
  | (_, j) :: rest => finite j && finiteEntries rest

end

theorem finiteItems_iff {items : List Json} :
    finiteItems items = true ↔ ∀ j ∈ items, j.finite = true := by
  induction items with
  | nil => simp [finiteItems]
  | cons j rest ih => simp [finiteItems, ih]

theorem finiteEntries_iff {entries : List (Option String × Json)} :
    finiteEntries entries = true ↔ ∀ e ∈ entries, e.2.finite = true := by
  induction entries with
  | nil => simp [finiteEntries]
  | cons e rest ih =>
    obtain ⟨name, j⟩ := e
    simp [finiteEntries, ih]

theorem finite_toJson (l : NumberLiteral) : l.toJson.finite = true := by
  unfold NumberLiteral.toJson
  extract_lets n isWhole
  split
  · rename_i hwhole
    simp only [isWhole, Bool.and_eq_true] at hwhole
    have hsmall : n ≤ word64Max := by
      have hfits := hwhole.2
      split at hfits
      · have hhalf : n ≤ twoTo 63 := by simpa using (Bool.and_eq_true_iff.1 hfits).2
        exact Nat.le_trans hhalf (by decide)
      · simpa using hfits
    simp only [Json.finite, decide_eq_true_eq]
    split <;> simpa using hsmall
  · split
    · exact NumberLiteral.toFloat_finite ‹_›
    · rfl

theorem finite_value {part : NumberPart} {j : Json} (h : part.value? = some j) :
    j.finite = true := by
  unfold NumberPart.value? at h
  split at h <;> cases h <;> exact finite_toJson _

/-! ## Tokens -/

def Token.finite : Token → Bool
  | .literal j => j.finite
  | _ => true

def Scan.finite : Scan → Bool
  | .word _ value => value.finite
  | _ => true

def Found (r : Scan × List Token) : Prop :=
  r.1.finite = true ∧ ∀ t ∈ r.2, t.finite = true

theorem found_malformed : Found malformed := by
  simp [Found, malformed, Scan.finite, Token.finite]

theorem found_scanStart (c : Char) : Found (scanStart c) := by
  unfold scanStart
  split
  · simp [Found, Scan.finite]
  · split
    · simp [Found, Scan.finite]
    · split <;> simp [Found, Scan.finite, Token.finite, Json.finite, malformed]

theorem found_scanString (c : Char) (s : StringState) : Found (scanString c s) := by
  unfold scanString
  split
  · split
    · simp [Found, Scan.finite, Token.finite]
    · split
      · simp [Found, Scan.finite]
      · split
        · exact found_malformed
        · simp [Found, Scan.finite]
  · split
    · simp [Found, Scan.finite]
    · split
      · simp [Found, Scan.finite]
      · exact found_malformed
  · extract_lets value
    clear_value value
    split
    · simp [Found, Scan.finite]
    · cases value with
      | none => exact found_malformed
      | some n => simp [Found, Scan.finite]

theorem found_scan {state : Scan} (c : Char) (h : state.finite = true) : Found (scan c state) := by
  cases state with
  | between => exact found_scanStart c
  | word missing value =>
    simp only [scan]
    split
    · split
      · exact ⟨rfl, by simpa [Token.finite, Scan.finite] using h⟩
      · exact found_malformed
    · split
      · exact ⟨h, by simp⟩
      · exact found_malformed
    · exact found_malformed
  | string s => exact found_scanString c s
  | number part =>
    simp only [scan]
    split
    · exact ⟨rfl, by simp⟩
    · split
      · exact found_malformed
      · rename_i hvalue
        split
        · exact found_malformed
        · obtain ⟨hstate, htokens⟩ := found_scanStart c
          exact ⟨hstate, List.forall_mem_cons.2 ⟨finite_value hvalue, htokens⟩⟩
  | stopped => exact ⟨rfl, by simp [scan]⟩

theorem finite_scanEnd {state : Scan} {t : Token} (h : t ∈ scanEnd state) : t.finite = true := by
  cases state with
  | between | stopped => cases h
  | word missing value => simp_all [scanEnd, Token.finite]
  | string s => simp_all [scanEnd, Token.finite]
  | number part =>
    simp only [scanEnd] at h
    split at h
    · cases List.mem_singleton.1 h
      exact finite_value ‹_›
    · cases List.mem_singleton.1 h
      rfl

theorem finite_tokensFrom {state : Scan} {cs : List Char} (h : state.finite = true) :
    ∀ t ∈ tokensFrom state cs, t.finite = true := by
  induction cs generalizing state with
  | nil => exact fun t ht => finite_scanEnd ht
  | cons c cs ih =>
    obtain ⟨hstate, hfound⟩ := found_scan c h
    rw [tokensFrom, List.forall_mem_append]
    exact ⟨hfound, ih hstate⟩

/-! ## Documents -/

def Frame.finite : Frame → Bool
  | .array items => finiteItems items
  | .object fields _ => finiteEntries fields

theorem finite_array {items : List Json} {cut : Option Flaw} (h : finiteItems items = true) :
    (Json.array items.reverse cut).finite = true := by
  rw [Json.finite, finiteItems_iff]
  intro j hj
  exact finiteItems_iff.1 h j (List.mem_reverse.1 hj)

theorem finite_object {fields : List (Option String × Json)} {cut : Option Flaw}
    (h : finiteEntries fields = true) : (Json.object fields.reverse cut).finite = true := by
  rw [Json.finite, finiteEntries_iff]
  intro e he
  exact finiteEntries_iff.1 h e (List.mem_reverse.1 he)

theorem finite_inside (stack : List Frame) {j : Json} (h : j.finite = true) :
    (inside stack j).finite = true := by
  unfold inside
  split <;> exact h

theorem finite_closeAll (reason : Flaw) {stack : List Frame} {j : Json}
    (hstack : ∀ f ∈ stack, f.finite = true) (hj : j.finite = true) :
    (closeAll reason stack j).finite = true := by
  induction stack generalizing j with
  | nil => exact hj
  | cons f stack ih =>
    obtain ⟨hf, hrest⟩ := List.forall_mem_cons.1 hstack
    cases f with
    | array items =>
      refine ih hrest (finite_inside _ (finite_array ?_))
      rw [finiteItems, hj]
      exact hf
    | object fields name =>
      refine ih hrest (finite_inside _ (finite_object ?_))
      rw [finiteEntries, hj]
      exact hf

theorem finite_cutAtValue (reason : Flaw) {stack : List Frame}
    (hstack : ∀ f ∈ stack, f.finite = true) : (cutAtValue reason stack).value.finite = true :=
  finite_closeAll reason hstack rfl

theorem finite_cutInside (reason : Flaw) {stack : List Frame}
    (hstack : ∀ f ∈ stack, f.finite = true) : (cutInside reason stack).value.finite = true := by
  cases stack with
  | nil => rfl
  | cons f stack =>
    obtain ⟨hf, hrest⟩ := List.forall_mem_cons.1 hstack
    cases f with
    | array items => exact finite_closeAll reason hrest (finite_inside _ (finite_array hf))
    | object fields name => exact finite_closeAll reason hrest (finite_inside _ (finite_object hf))

theorem finite_endOfText (expected : Expected) {stack : List Frame}
    (hstack : ∀ f ∈ stack, f.finite = true) : (endOfText expected stack).value.finite = true := by
  cases expected with
  | value | colon => exact finite_cutAtValue _ hstack
  | firstItem | firstField | separator | field => exact finite_cutInside _ hstack

theorem finite_build {ts : List Token} (expected : Expected) {stack : List Frame}
    (hts : ∀ t ∈ ts, t.finite = true) (hstack : ∀ f ∈ stack, f.finite = true) :
    (build ts expected stack).value.finite = true := by
  induction ts generalizing expected stack with
  | nil => exact finite_endOfText expected hstack
  | cons t ts ih =>
    obtain ⟨ht, hrest⟩ := List.forall_mem_cons.1 hts
    unfold build
    extract_lets finish value field
    have hfinish {j : Json} {stack : List Frame} (hj : j.finite = true)
        (hstack : ∀ f ∈ stack, f.finite = true) : (finish j stack).value.finite = true := by
      simp only [finish]
      split
      · exact hj
      · obtain ⟨hf, hstack⟩ := List.forall_mem_cons.1 hstack
        refine ih _ hrest (List.forall_mem_cons.2 ⟨?_, hstack⟩)
        simpa [Frame.finite, finiteItems, hj] using hf
      · obtain ⟨hf, hstack⟩ := List.forall_mem_cons.1 hstack
        refine ih _ hrest (List.forall_mem_cons.2 ⟨?_, hstack⟩)
        simpa [Frame.finite, finiteEntries, hj] using hf
    have hvalue : (value t).value.finite = true := by
      simp only [value]
      split
      · exact hfinish ht hstack
      · exact hfinish rfl hstack
      · exact hfinish rfl hstack
      · exact ih _ hrest (List.forall_mem_cons.2 ⟨rfl, hstack⟩)
      · exact ih _ hrest (List.forall_mem_cons.2 ⟨rfl, hstack⟩)
      · exact finite_cutAtValue _ hstack
    have hfield : (field t).value.finite = true := by
      simp only [field]
      split
      · obtain ⟨hf, hstack⟩ := List.forall_mem_cons.1 hstack
        exact ih _ hrest (List.forall_mem_cons.2 ⟨hf, hstack⟩)
      · exact finite_cutInside _ hstack
    split
    · exact hvalue
    · obtain ⟨hf, hstack⟩ := List.forall_mem_cons.1 hstack
      exact hfinish (finite_inside _ (finite_array hf)) hstack
    · exact hvalue
    · obtain ⟨hf, hstack⟩ := List.forall_mem_cons.1 hstack
      exact hfinish (finite_inside _ (finite_object hf)) hstack
    · exact hfield
    · exact hfield
    · exact ih _ hrest hstack
    · exact finite_cutAtValue _ hstack
    · exact ih _ hrest hstack
    · obtain ⟨hf, hstack⟩ := List.forall_mem_cons.1 hstack
      exact hfinish (finite_inside _ (finite_array hf)) hstack
    · exact ih _ hrest hstack
    · obtain ⟨hf, hstack⟩ := List.forall_mem_cons.1 hstack
      exact hfinish (finite_inside _ (finite_object hf)) hstack
    · exact finite_cutInside _ hstack

/-- The numbers of a document that was read from a text are finite. -/
theorem finite_read (text : String) : (read text).value.finite = true :=
  finite_build .value (finite_tokensFrom rfl) (by simp)

end Json

end BufferLedger
