import Montage.Proofs.Number.Decimal

/-!
Numbers that are read from their texts.

A decimal text is read as the nearest binary64 value, as long as it is within the finite range.
What is read from the trimmed text of a value is therefore not farther from the number that the text
names than the value itself.
-/

namespace Montage

namespace Text

/-- The characters of number texts are digits of no other script. -/
theorem asciiDigit_of_isNumeral {c : Char} (hc : isNumeral c = true) : asciiDigit c = c := by
  have hkept : MadeOf (fun c => asciiDigit c == c) "0123456789-+.einfa".toList := by decide +kernel
  exact beq_iff_eq.1 (kind_of_isNumeral hkept hc)

theorem isNumberPadding_of_isNumeral {c : Char} (hc : isNumeral c = true) :
    isNumberPadding c = false := by
  have hkept : MadeOf (fun c => !isNumberPadding c) "0123456789-+.einfa".toList := by decide
  rw [← Bool.not_eq_true']
  exact kind_of_isNumeral hkept hc

/-- What has no character of a kind is not trimmed. -/
theorem trimOf_eq_self {kind : Char → Bool} {s : List Char} (h : ∀ c ∈ s, kind c = false) :
    trimOf kind s = s := by
  have hkept : ∀ {s : List Char}, (∀ c ∈ s, kind c = false) → s.dropWhile kind = s := by
    intro s hs
    cases s with
    | nil => rfl
    | cons c rest => rw [List.dropWhile_cons, hs c List.mem_cons_self, if_neg Bool.false_ne_true]
  rw [trimOf, hkept h, hkept fun c hc => h c (List.mem_reverse.1 hc), List.reverse_reverse]

/-- Without low lines there are no gaps. -/
theorem dropDigitGaps_eq_some {s : List Char} (hs : '_' ∉ s) {previous : Option Char}
    (hprevious : previous ≠ some '_') : dropDigitGaps previous s = some s := by
  have hbefore : (previous == some '_') = false := beq_eq_false_iff_ne.2 hprevious
  induction s generalizing previous with
  | nil => rw [dropDigitGaps, hbefore, if_neg Bool.false_ne_true]
  | cons c rest ih =>
      obtain ⟨hc, hrest⟩ := not_or.1 (List.mem_cons.not.1 hs)
      have hnext : some c ≠ some '_' := fun heq => hc (Option.some.inj heq).symm
      rw [dropDigitGaps, if_neg (beq_iff_eq.not.2 (Ne.symm hc)), hbefore, Bool.false_and,
        if_neg Bool.false_ne_true, ih hrest hnext (beq_eq_false_iff_ne.2 hnext), Option.map_some]

/-- A text that begins with a digit is no word. -/
theorem map_toLower_ne {c d : Char} (hc : c.isDigit = true) (hd : d.isDigit = false)
    (rest more : List Char) : (c :: rest).map Char.toLower ≠ d :: more := by
  have hlower : MadeOf (fun c => c.toLower.isDigit) "0123456789".toList := by decide
  intro heq
  exact ne_of_kind (hlower c (mem_of_isDigit hc)) hd (List.cons.inj heq).1

theorem madeOf_withPoint {places : Nat} {whole fraction : List Char}
    (h : TrimmedAs places whole fraction) : MadeOf isNumeral (withPoint whole fraction) := by
  have hdigit : ∀ c, c.isDigit = true → isNumeral c = true := by
    intro c hc
    rw [isNumeral, hc, Bool.true_or]
  have hwhole := h.wholeDigits.imp hdigit
  have hfraction := h.fractionDigits.imp hdigit
  exact madeOf_ite hwhole (hwhole.append (.cons (by decide) hfraction))

/-- A trimmed text is read as its decimal. -/
theorem readBinary64?_withPoint {places : Nat} {whole fraction : List Char}
    (h : TrimmedAs places whole fraction) (negative : Bool) :
    readBinary64? (String.ofList ((if negative then ['-'] else []) ++ withPoint whole fraction)) =
      some (Decimal.toBinary64 negative
        ⟨Nat.ofDigitChars 10 (whole ++ fraction) 0, -fraction.length⟩) := by
  have hbody := madeOf_withPoint h
  have hnumeral := (madeOf_sign (negative = true)).append hbody
  obtain ⟨c, rest, hc, hfirst⟩ := exists_cons_withPoint h.ne_nil h.wholeDigits fraction
  have hword : (withPoint whole fraction).map Char.toLower ≠ "inf".toList ∧
      (withPoint whole fraction).map Char.toLower ≠ "infinity".toList ∧
        (withPoint whole fraction).map Char.toLower ≠ "nan".toList := by
    rw [hfirst]
    exact ⟨map_toLower_ne hc (by decide) _ _, map_toLower_ne hc (by decide) _ _,
      map_toLower_ne hc (by decide) _ _⟩
  rw [readBinary64?, String.toList_ofList,
    trimOf_eq_self fun c hc => isNumberPadding_of_isNumeral (hnumeral c hc),
    List.map_congr_left fun c hc => asciiDigit_of_isNumeral (hnumeral c hc), List.map_id',
    splitSign_withPoint h.ne_nil h.wholeDigits]
  simp only [hword.1, hword.2.1, hword.2.2, or_self, if_false,
    dropDigitGaps_eq_some (hbody.not_mem (by decide)) (Option.some_ne_none _).symm]
  rw [Option.bind_eq_bind, Option.bind_some,
    decimal?_withPoint h.ne_nil h.wholeDigits h.fractionDigits]
  rfl

end Text

open Text

section Digits

theorem lt_pow_digitCount (n : Nat) : n < 10 ^ digitCount n :=
  (Nat.length_toDigits_le_iff (by decide) Nat.length_toDigits_pos).1 le_rfl

theorem pow_digitCount_le {n : Nat} (hn : n ≠ 0) : 10 ^ (digitCount n - 1) ≤ n := by
  by_cases hone : digitCount n - 1 = 0
  · rw [hone, pow_zero]
    exact Nat.one_le_iff_ne_zero.2 hn
  · rw [← not_lt, ← Nat.length_toDigits_le_iff (by decide) (Nat.pos_of_ne_zero hone)]
    have hpos : 0 < digitCount n := Nat.length_toDigits_pos
    change ¬digitCount n ≤ digitCount n - 1
    omega

end Digits

namespace Decimal

variable {d : Decimal}

/-- The exponent of the digit in front of the first one. -/
def lead (d : Decimal) : ℤ := d.exponent + digitCount d.digits

theorem value_lt (d : Decimal) : d.value < 10 ^ d.lead := by
  have hdigits : (d.digits : ℚ) < 10 ^ (digitCount d.digits : ℤ) := by
    rw [zpow_natCast]
    exact_mod_cast lt_pow_digitCount d.digits
  rw [value, lead, zpow_add₀ (by norm_num), mul_comm]
  exact mul_lt_mul_of_pos_left hdigits (zpow_pos (by norm_num) _)

theorem le_value (h : d.digits ≠ 0) : (10 : ℚ) ^ (d.lead - 1) ≤ d.value := by
  have hpos : 0 < digitCount d.digits := Nat.length_toDigits_pos
  have hlead : d.lead - 1 = d.exponent + (digitCount d.digits - 1 : Nat) := by
    rw [lead]
    omega
  have hdigits : (10 : ℚ) ^ ((digitCount d.digits - 1 : Nat) : ℤ) ≤ d.digits := by
    rw [zpow_natCast]
    exact_mod_cast pow_digitCount_le h
  rw [value, hlead, zpow_add₀ (by norm_num), mul_comm]
  exact mul_le_mul_of_nonneg_right hdigits (zpow_nonneg (by norm_num) _)

/-- The two whole numbers whose quotient a decimal is, in units. -/
theorem ratio_eq (d : Decimal) : (d.ratio.1 : ℚ) / d.ratio.2 = d.value * unitsInOne := by
  have hexponent : (10 : ℚ) ^ d.exponent = 10 ^ d.exponent.toNat / 10 ^ (-d.exponent).toNat := by
    rw [← zpow_natCast, ← zpow_natCast, ← zpow_sub₀ (by norm_num)]
    congr 1
    omega
  rw [ratio, value, hexponent, Nat.pow_eq, Nat.pow_eq]
  push_cast
  ring

theorem ratio_pos (d : Decimal) : 0 < d.ratio.2 := Nat.pow_pos (by decide)

theorem value_nonneg (d : Decimal) : 0 ≤ d.value :=
  mul_nonneg (Nat.cast_nonneg _) (zpow_nonneg (by norm_num) _)

/-- Far below the range there is less than half of a unit. -/
theorem value_lt_half (h : d.digits = 0 ∨ d.lead < -400) : d.value * unitsInOne < 1 / 2 := by
  rcases h with hzero | hsmall
  · rw [value, hzero, Nat.cast_zero, zero_mul, zero_mul]
    norm_num
  · have hunits : 2 * unitsInOne < 10 ^ 400 := by decide +kernel
    have hunits' : 2 * (unitsInOne : ℚ) < 10 ^ 400 := by exact_mod_cast hunits
    have hpower : (10 : ℚ) ^ d.lead ≤ (10 ^ 400)⁻¹ := by
      rw [← zpow_natCast, ← zpow_neg]
      exact zpow_le_zpow_right₀ (by norm_num) (by push_cast; omega)
    have hbelow := d.value_lt.le.trans hpower
    refine (mul_le_mul_of_nonneg_right hbelow (Nat.cast_nonneg _)).trans_lt ?_
    rw [inv_mul_lt_iff₀ (by positivity), mul_one_div, lt_div_iff₀' two_pos]
    exact hunits'

/-- Far above the range there are more units than any count has. -/
theorem unitsLimit_le_value (h : d.digits ≠ 0) (hlarge : 400 < d.lead) :
    (unitsLimit : ℚ) ≤ d.value * unitsInOne := by
  have hlimit : unitsLimit ≤ 10 ^ 400 * unitsInOne := by decide +kernel
  have hpower : (10 : ℚ) ^ 400 ≤ 10 ^ (d.lead - 1) := by
    rw [← zpow_natCast]
    exact zpow_le_zpow_right₀ (by norm_num) (by push_cast; omega)
  calc (unitsLimit : ℚ) ≤ 10 ^ 400 * unitsInOne := by exact_mod_cast hlimit
    _ ≤ d.value * unitsInOne :=
      mul_le_mul_of_nonneg_right (hpower.trans (le_value h)) (Nat.cast_nonneg _)

theorem toBinary64_eq (d : Decimal) (negative : Bool) :
    d.toBinary64 negative =
      if d.digits = 0 ∨ d.lead < -400 then .finite negative 0 IsCount.zero
      else if 400 < d.lead then .infinity negative
      else .ofRatio negative d.ratio.1 d.ratio.2 := rfl

/-- No whole number is nearer than zero to what is less than one half. -/
theorem abs_zero_sub_le {q : ℚ} (hq : 0 ≤ q) (hhalf : q < 1 / 2) (m : Nat) :
    |((0 : Nat) : ℚ) - q| ≤ |(m : ℚ) - q| := by
  cases m with
  | zero => exact le_rfl
  | succ m =>
      have hm : (0 : ℚ) ≤ m := Nat.cast_nonneg m
      rw [Nat.cast_zero, zero_sub, abs_neg, abs_of_nonneg hq, Nat.cast_succ]
      exact le_trans (by linarith) (le_abs_self _)

/-- A decimal within the finite range is read as the nearest count of units. -/
theorem exists_toBinary64 {c : Nat} (hc : IsCount c) (hle : d.value * unitsInOne ≤ c)
    (negative : Bool) :
    ∃ k hk, d.toBinary64 negative = .finite negative k hk ∧
      ∀ m, IsCount m → |(k : ℚ) - d.value * unitsInOne| ≤ |(m : ℚ) - d.value * unitsInOne| := by
  rw [toBinary64_eq]
  split
  · next hsmall =>
      have hnonneg : 0 ≤ d.value * unitsInOne := mul_nonneg d.value_nonneg (Nat.cast_nonneg _)
      exact ⟨0, IsCount.zero, rfl, fun m _ => abs_zero_sub_le hnonneg (value_lt_half hsmall) m⟩
  · next hsmall =>
      split
      · next hlarge =>
          have hlimit : (c : ℚ) < unitsLimit := Nat.cast_lt.2 hc.2
          have hover := unitsLimit_le_value (fun hzero => hsmall (.inl hzero)) hlarge
          linarith
      · rw [← d.ratio_eq] at hle ⊢
        have hbound : d.ratio.1 ≤ c * d.ratio.2 := by
          rw [div_le_iff₀ (Nat.cast_pos.2 d.ratio_pos)] at hle
          exact_mod_cast hle
        have hrange : roundCount d.ratio.1 d.ratio.2 < unitsLimit :=
          (roundCount_le_of_isCount hc d.ratio_pos hbound).trans_lt hc.2
        rw [Binary64.ofRatio, dif_pos hrange]
        refine ⟨_, ⟨roundCount_dvd _ _, hrange⟩, rfl, fun m hm => ?_⟩
        exact abs_roundCount_sub_le hm _ d.ratio_pos

end Decimal

section Values

variable {d : Decimal}

/-- A sign does not change the distance from zero. -/
theorem abs_ite_neg {q : ℚ} (hq : 0 ≤ q) (negative : Bool) : |if negative then -q else q| = q := by
  cases negative with
  | false => exact abs_of_nonneg hq
  | true => exact (abs_neg q).trans (abs_of_nonneg hq)

/-- A decimal that is not above a whole number within the range is read as the nearest finite
value. -/
theorem Decimal.nearest_toBinary64 {n : Nat} (hn : IsCount (n * unitsInOne)) (hle : d.value ≤ n)
    (negative : Bool) :
    (d.toBinary64 negative).isFinite = true ∧ ∀ z : Binary64, z.isFinite = true →
      |(Number.float (d.toBinary64 negative)).value - if negative then -d.value else d.value| ≤
        |(Number.float z).value - if negative then -d.value else d.value| := by
  have hunits : (0 : ℚ) < unitsInOne := Nat.cast_pos.2 unitsInOne_pos
  have hbound : d.value * unitsInOne ≤ (n * unitsInOne : Nat) := by
    rw [Nat.cast_mul]
    exact mul_le_mul_of_nonneg_right hle hunits.le
  obtain ⟨k, hk, hread, hnearest⟩ := d.exists_toBinary64 hn hbound negative
  rw [hread]
  refine ⟨rfl, fun z hz => ?_⟩
  cases z with
  | nan => exact absurd hz Bool.false_ne_true
  | infinity => exact absurd hz Bool.false_ne_true
  | finite s m hm =>
      have hsame : |(Number.float (.finite negative k hk)).value -
          if negative then -d.value else d.value| = |(k : ℚ) / unitsInOne - d.value| := by
        rw [Binary64.value_finite]
        cases negative with
        | false => rfl
        | true => rw [if_pos rfl, if_pos rfl, neg_sub_neg, abs_sub_comm]
      have hother : |(m : ℚ) / unitsInOne - d.value| ≤ |(Number.float (.finite s m hm)).value -
          if negative then -d.value else d.value| := by
        have hsizes := abs_abs_sub_abs_le (if s then -((m : ℚ) / unitsInOne) else m / unitsInOne)
          (if negative then -d.value else d.value)
        rw [abs_ite_neg (div_nonneg (Nat.cast_nonneg m) hunits.le), abs_ite_neg d.value_nonneg]
          at hsizes
        rwa [Binary64.value_finite]
      rw [hsame]
      refine le_trans ?_ hother
      rw [abs_div_sub hunits, abs_div_sub hunits]
      exact div_le_div_of_nonneg_right (hnearest m hm) hunits.le

end Values

namespace Binary64

variable {x : Binary64}

/-- Rounding to so many places stays below a whole number. -/
theorem exists_whole_rounded (hx : x.isFinite = true) (places : Nat) :
    ∃ n, IsCount (n * unitsInOne) ∧ |x.rounded places| ≤ n := by
  cases x with
  | nan => exact absurd hx Bool.false_ne_true
  | infinity => exact absurd hx Bool.false_ne_true
  | finite s m hm =>
      obtain ⟨n, hn, hle⟩ := hm.exists_whole
      have hten : (0 : ℚ) < 10 ^ places := by positivity
      have hrounded : roundHalfEven (m * 10 ^ places) unitsInOne ≤ n * 10 ^ places := by
        refine roundHalfEven_le unitsInOne_pos ?_
        rw [Nat.mul_right_comm]
        exact Nat.mul_le_mul_right _ hle
      refine ⟨n, hn, ?_⟩
      rw [rounded, Nat.pow_eq, abs_div, abs_of_pos hten, div_le_iff₀ hten, ← Int.cast_abs,
        Int.abs_eq_natAbs, natAbs_signedCount]
      exact_mod_cast hrounded

/-- The trimmed text of a finite value is read as a value that is not farther from the number that
the text names. -/
theorem exists_readBinary64?_trimmed (hx : x.isFinite = true) (places : Nat) :
    ∃ y, Text.readBinary64? (x.trimmed places) = some y ∧ y.isFinite = true ∧
      |(Number.float y).value - x.rounded places| ≤
        |(Number.float x).value - x.rounded places| := by
  obtain ⟨n, hn, hwhole⟩ := exists_whole_rounded hx places
  have hnamed := decimalValue?_trimmed hx places
  cases x with
  | nan => exact absurd hx Bool.false_ne_true
  | infinity => exact absurd hx Bool.false_ne_true
  | finite s m hm =>
      obtain ⟨minus, whole, fraction, h, htext⟩ :=
        isTrimmed_trimmedDigits places (roundHalfEven (m * 10 ^ places) unitsInOne) s
      rw [trimmed_finite, htext, String.toList_ofList, decimalValue?_withPoint h,
        Option.some.injEq] at hnamed
      rw [trimmed_finite, htext, readBinary64?_withPoint h, ← hnamed]
      rw [← hnamed, abs_ite_neg (Decimal.value_nonneg _)] at hwhole
      obtain ⟨hfinite, hnearest⟩ := Decimal.nearest_toBinary64 hn hwhole minus
      exact ⟨_, rfl, hfinite, hnearest _ rfl⟩

end Binary64

end Montage
