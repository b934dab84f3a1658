import Mathlib.Data.List.DropRight
import Montage.Number.Reading
import Montage.Proofs.Number.Nearest
import Montage.Proofs.Text.Characters

/-!
The exact values of decimal texts.

A value that is written with so many places is rounded to a multiple of the last one, and the text
names this multiple.  Trimming the text takes zeros off its end and the sign off a zero, and the
text still names the same number.
-/

namespace Montage

/-- The exact value of a decimal. -/
def Decimal.value (d : Decimal) : ℚ := d.digits * 10 ^ d.exponent

namespace Text

/-- The exact value that a decimal text names. -/
def decimalValue? (s : List Char) : Option ℚ :=
  let (negative, body) := splitSign s
  (decimal? body).map fun d => if negative then -d.value else d.value

/-- Digits with a point before the last of them; without such places there is no point. -/
def withPoint (whole places : List Char) : List Char :=
  if places = [] then whole else whole ++ '.' :: places

end Text

open Text

section Trimming

variable {front fraction : List Char}

theorem rdropWhile_append {α : Type} (p : α → Bool) (l₁ l₂ : List α) :
    (l₁ ++ l₂).rdropWhile p =
      if l₂.rdropWhile p = [] then l₁.rdropWhile p else l₁ ++ l₂.rdropWhile p := by
  simp only [List.rdropWhile, List.reverse_append, List.dropWhile_append, List.isEmpty_iff,
    List.reverse_eq_nil_iff]
  split
  · rfl
  · rw [List.reverse_append, List.reverse_reverse]

theorem trimPlaces_of_not_mem {s : List Char} (h : '.' ∉ s) : trimPlaces s = s := by
  rw [trimPlaces, if_neg]
  rwa [List.contains_iff_mem]

/-- The zeros at the end are dropped, and the point too where nothing is left after it. -/
theorem trimPlaces_point (hfront : '.' ∉ front) (hfraction : '.' ∉ fraction) :
    trimPlaces (front ++ ['.'] ++ fraction) =
      withPoint front (fraction.rdropWhile (· == '0')) := by
  have hpoint : (front ++ ['.'] ++ fraction).contains '.' = true := by simp
  have htrim : trimPlaces (front ++ ['.'] ++ fraction) =
      ((front ++ ['.'] ++ fraction).rdropWhile (· == '0')).rdropWhile (· == '.') := by
    rw [trimPlaces, if_pos hpoint, List.rdropWhile, List.rdropWhile, List.reverse_reverse]
  have hnone : ∀ {s : List Char}, '.' ∉ s → s.rdropWhile (· == '.') = s := by
    intro s hs
    refine List.rdropWhile_eq_self_iff.2 fun hne hlast => hs ?_
    rw [← beq_iff_eq.1 hlast]
    exact List.getLast_mem hne
  have hkept : '.' ∉ fraction.rdropWhile (· == '0') :=
    fun hmem => hfraction ((List.rdropWhile_prefix _ fraction).subset hmem)
  rw [htrim, rdropWhile_append, withPoint]
  generalize fraction.rdropWhile (· == '0') = kept at hkept
  split
  · rw [List.rdropWhile_concat_neg _ _ _ (by decide), List.rdropWhile_concat_pos _ _ _ (by decide),
      hnone hfront]
  · next hne =>
      rw [rdropWhile_append, hnone hkept, if_neg hne, List.append_assoc]
      rfl

end Trimming

section Placed

variable {n places : Nat} {whole fraction : List Char}

theorem PlacedAs.trimPlaces_eq (h : PlacedAs n places whole fraction) {sign : List Char}
    (hsign : '.' ∉ sign) :
    trimPlaces (sign ++ if places = 0 then whole else whole ++ ['.'] ++ fraction) =
      sign ++ withPoint whole (fraction.rdropWhile (· == '0')) := by
  have hfront : '.' ∉ sign ++ whole := List.not_mem_append hsign (h.wholeDigits.not_mem (by decide))
  have hjoin : ∀ kept, sign ++ withPoint whole kept = withPoint (sign ++ whole) kept := by
    intro kept
    rw [withPoint, withPoint]
    split
    · rfl
    · rw [List.append_assoc]
  rw [hjoin]
  split
  · next hnone =>
      have hnil : fraction = [] := List.eq_nil_of_length_eq_zero (h.length.trans hnone)
      rw [trimPlaces_of_not_mem hfront, hnil]
      rfl
  · rw [← List.append_assoc, ← List.append_assoc,
      trimPlaces_point hfront (h.fractionDigits.not_mem (by decide))]

/-- Zeros at the end of the places add nothing. -/
theorem PlacedAs.value_trimmed (h : PlacedAs n places whole fraction) :
    let kept := fraction.rdropWhile (· == '0')
    (Decimal.mk (Nat.ofDigitChars 10 (whole ++ kept) 0) (-kept.length)).value =
      n / 10 ^ places := by
  intro kept
  obtain ⟨zeros, hzeros⟩ : ∃ zeros, fraction = kept ++ List.replicate zeros '0' := by
    refine ⟨(fraction.rtakeWhile (· == '0')).length, ?_⟩
    have hall : fraction.rtakeWhile (· == '0') =
        List.replicate (fraction.rtakeWhile (· == '0')).length '0' :=
      List.eq_replicate_of_mem fun c hc =>
        beq_iff_eq.1 (List.mem_rtakeWhile_imp (p := (· == '0')) hc)
    rw [← hall]
    exact List.rdropWhile_append_rtakeWhile.symm
  have hlength : places = kept.length + zeros := by
    rw [← h.length, hzeros, List.length_append, List.length_replicate]
  have hvalue : n = 10 ^ zeros * Nat.ofDigitChars 10 (whole ++ kept) 0 := by
    rw [← h.value, hzeros, ← List.append_assoc, Nat.ofDigitChars_append,
      Nat.ofDigitChars_replicate_zero]
  have hten : (10 : ℚ) ^ zeros ≠ 0 := pow_ne_zero _ (by norm_num)
  rw [Decimal.value, zpow_neg, zpow_natCast, hlength, hvalue, ← div_eq_mul_inv, pow_add,
    mul_comm (10 ^ kept.length), Nat.cast_mul, Nat.cast_pow, Nat.cast_ofNat,
    mul_div_mul_left _ _ hten]

end Placed

section Reading

variable {n places : Nat} {whole fraction : List Char}

theorem decimal?_withPoint (hne : whole ≠ []) (hwhole : MadeOf Char.isDigit whole)
    (hfraction : MadeOf Char.isDigit fraction) :
    decimal? (withPoint whole fraction) =
      some ⟨Nat.ofDigitChars 10 (whole ++ fraction) 0, -fraction.length⟩ := by
  have hempty : whole.isEmpty = false := List.isEmpty_eq_false_iff.2 hne
  have htake : ∀ {s : List Char}, MadeOf Char.isDigit s →
      s.takeWhile Char.isDigit = s ∧ s.dropWhile Char.isDigit = [] := fun hs =>
    ⟨List.takeWhile_eq_self_iff.2 hs, List.dropWhile_eq_nil_iff.2 hs⟩
  rw [withPoint]
  split
  · next hnone =>
      rw [hnone, decimal?, (htake hwhole).1, (htake hwhole).2, hempty]
      rfl
  · have hpoint : ('.' :: fraction).takeWhile Char.isDigit = [] ∧
        ('.' :: fraction).dropWhile Char.isDigit = '.' :: fraction := ⟨rfl, rfl⟩
    rw [decimal?, List.takeWhile_append_of_pos hwhole, List.dropWhile_append_of_pos hwhole,
      hpoint.1, hpoint.2, List.append_nil, hempty]
    simp only [(htake hfraction).1, (htake hfraction).2, Bool.false_and, Bool.false_eq_true,
      ↓reduceIte, exponentValue?, Option.map_some]
    rw [zero_sub]
    rfl

theorem splitSign_of_digit {c : Char} (hc : c.isDigit = true) (rest : List Char) :
    splitSign (c :: rest) = (false, c :: rest) := by
  have hminus : c ≠ '-' := ne_of_kind hc (by decide)
  have hplus : c ≠ '+' := ne_of_kind hc (by decide)
  unfold splitSign
  split
  · next heq => exact absurd (List.cons.inj heq).1 hminus
  · next heq => exact absurd (List.cons.inj heq).1 hplus
  · rfl

theorem exists_cons_withPoint (hne : whole ≠ []) (hwhole : MadeOf Char.isDigit whole)
    (fraction : List Char) :
    ∃ c rest, c.isDigit = true ∧ withPoint whole fraction = c :: rest := by
  obtain ⟨c, more, rfl⟩ := List.exists_cons_of_ne_nil hne
  have hc := hwhole c List.mem_cons_self
  rw [withPoint]
  split
  · exact ⟨c, _, hc, rfl⟩
  · exact ⟨c, _, hc, rfl⟩

theorem splitSign_withPoint (hne : whole ≠ []) (hwhole : MadeOf Char.isDigit whole)
    (negative : Bool) :
    splitSign ((if negative then ['-'] else []) ++ withPoint whole fraction) =
      (negative, withPoint whole fraction) := by
  cases negative with
  | true => rfl
  | false =>
      obtain ⟨c, rest, hc, hbody⟩ := exists_cons_withPoint hne hwhole fraction
      rw [hbody]
      exact splitSign_of_digit hc rest

/-- The sign of zero is not seen in the value. -/
theorem decimalValue?_dropZeroSign (s : List Char) :
    decimalValue? (dropZeroSign s) = decimalValue? s := by
  rw [dropZeroSign]
  split
  · next hzero =>
      have hdigit : decimal? ['0'] = some ⟨0, 0⟩ := by decide
      have hvalue : (Decimal.mk 0 0).value = 0 := by simp [Decimal.value]
      have hsplit : splitSign ['0'] = (false, ['0']) ∧ splitSign ['-', '0'] = (true, ['0']) :=
        ⟨rfl, rfl⟩
      rw [hzero, decimalValue?, decimalValue?, hsplit.1, hsplit.2]
      simp only [hdigit, Option.map_some, hvalue, neg_zero, ite_self]
  · rfl

end Reading

section Trimmed

variable {places : Nat} {whole fraction : List Char}

/-- The digits of a trimmed text in front of the point and after it: no zero stands in front of
other digits, and none at the end of the places. -/
structure TrimmedAs (places : Nat) (whole fraction : List Char) : Prop where
  ne_nil : whole ≠ []
  wholeDigits : MadeOf Char.isDigit whole
  leading : whole.head? = some '0' → whole = ['0']
  fractionDigits : MadeOf Char.isDigit fraction
  length_le : fraction.length ≤ places
  last : fraction.getLast? ≠ some '0'

/-- A number text without superfluous characters: a sign or none, digits that do not begin with a
zero in front of others, and either no point or, after one, up to so many digits that do not end in
a zero. -/
def IsTrimmed (places : Nat) (s : List Char) : Prop :=
  ∃ (negative : Bool) (whole fraction : List Char), TrimmedAs places whole fraction ∧
    s = (if negative then ['-'] else []) ++ withPoint whole fraction

theorem PlacedAs.trimmedAs {n : Nat} (h : PlacedAs n places whole fraction) :
    TrimmedAs places whole (fraction.rdropWhile (· == '0')) := by
  have hprefix := List.rdropWhile_prefix (· == '0') fraction
  constructor
  case ne_nil => exact h.ne_nil
  case wholeDigits => exact h.wholeDigits
  case leading => exact h.leading
  case fractionDigits => exact h.fractionDigits.subset hprefix.subset
  case length_le => exact h.length ▸ hprefix.length_le
  case last =>
    intro hlast
    obtain ⟨hne, hzero⟩ := List.mem_getLast?_eq_getLast hlast
    exact List.rdropWhile_last_not _ _ hne (beq_iff_eq.2 hzero.symm)

theorem trimmedAs_zero (places : Nat) : TrimmedAs places ['0'] [] := by
  constructor
  case length_le => exact Nat.zero_le places
  all_goals decide

/-- The exact value of the decimal with these digits and this sign. -/
theorem decimalValue?_withPoint (h : TrimmedAs places whole fraction) (negative : Bool) :
    let d := Decimal.mk (Nat.ofDigitChars 10 (whole ++ fraction) 0) (-fraction.length)
    decimalValue? ((if negative then ['-'] else []) ++ withPoint whole fraction) =
      some (if negative then -d.value else d.value) := by
  rw [decimalValue?, splitSign_withPoint h.ne_nil h.wholeDigits]
  simp only [decimal?_withPoint h.ne_nil h.wholeDigits h.fractionDigits, Option.map_some]

/-- The trimmed text of so many units of the last place. -/
def trimmedDigits (places n : Nat) (negative : Bool) : List Char :=
  dropZeroSign (trimPlaces ((if negative then ['-'] else []) ++ placedDigits n places))

theorem isTrimmed_trimmedDigits (places n : Nat) (negative : Bool) :
    IsTrimmed places (trimmedDigits places n negative) := by
  obtain ⟨whole, fraction, h, hplaced⟩ := exists_placedAs n places
  have hsign : '.' ∉ (if negative then ['-'] else []) := by cases negative <;> decide
  rw [trimmedDigits, hplaced, h.trimPlaces_eq hsign, dropZeroSign]
  by_cases hzero : (if negative then ['-'] else []) ++
      withPoint whole (fraction.rdropWhile (· == '0')) = ['-', '0']
  · rw [if_pos hzero]
    exact ⟨false, ['0'], [], trimmedAs_zero places, rfl⟩
  · rw [if_neg hzero]
    exact ⟨negative, whole, _, h.trimmedAs, rfl⟩

/-- The trimmed text names the number of units. -/
theorem decimalValue?_trimmedDigits (places n : Nat) (negative : Bool) :
    decimalValue? (trimmedDigits places n negative) =
      some ((Binary64.signedCount negative n : ℚ) / 10 ^ places) := by
  obtain ⟨whole, fraction, h, hplaced⟩ := exists_placedAs n places
  have hsign : '.' ∉ (if negative then ['-'] else []) := by cases negative <;> decide
  rw [trimmedDigits, decimalValue?_dropZeroSign, hplaced, h.trimPlaces_eq hsign,
    decimalValue?_withPoint h.trimmedAs, h.value_trimmed, Binary64.signedCount]
  cases negative with
  | false => rfl
  | true => rw [if_pos rfl, if_pos rfl, Int.cast_neg, Int.cast_natCast, neg_div]

theorem dropZeroSign_ne (s : List Char) : dropZeroSign s ≠ ['-', '0'] := by
  rw [dropZeroSign]
  split
  · decide
  · assumption

theorem placedDigits_zero (places : Nat) :
    placedDigits 0 places =
      if places = 0 then ['0'] else ['0'] ++ ['.'] ++ List.replicate places '0' := by
  cases places with
  | zero => rfl
  | succ more =>
      have hpadded : List.replicate (more + 1) '0' ++ ['0'] =
          '0' :: List.replicate (more + 1) '0' := by
        rw [← List.replicate_succ', List.replicate_succ]
      have hcount : more + 1 + 1 - ['0'].length = more + 1 := rfl
      unfold placedDigits
      dsimp only
      rw [Nat.toDigits_zero, hcount, hpadded, List.length_cons, List.length_replicate,
        Nat.add_sub_cancel_left]
      rfl

/-- The sign of zero is not written. -/
theorem trimmedDigits_zero (places : Nat) (negative : Bool) :
    trimmedDigits places 0 negative = ['0'] := by
  have hfront : '.' ∉ (if negative then ['-'] else []) ++ ['0'] := by cases negative <;> decide
  have hzeros : '.' ∉ List.replicate places '0' :=
    fun hmem => absurd (List.eq_of_mem_replicate hmem) (by decide)
  have hkept : (List.replicate places '0').rdropWhile (· == '0') = [] :=
    List.rdropWhile_eq_nil_iff.2 fun c hc => beq_iff_eq.2 (List.eq_of_mem_replicate hc)
  have htrimmed : trimPlaces ((if negative then ['-'] else []) ++ placedDigits 0 places) =
      (if negative then ['-'] else []) ++ ['0'] := by
    rw [placedDigits_zero]
    by_cases hnone : places = 0
    · rw [if_pos hnone, trimPlaces_of_not_mem hfront]
    · rw [if_neg hnone, ← List.append_assoc, ← List.append_assoc, trimPlaces_point hfront hzeros,
        hkept]
      rfl
  rw [trimmedDigits, htrimmed]
  cases negative <;> rfl

end Trimmed

namespace Binary64

/-- The multiple of the last place that is nearest to a finite value; of two equally near, the even
one. -/
def rounded (places : Nat) : Binary64 → ℚ
  | .finite s m _ =>
    signedCount s (roundHalfEven (m * Nat.pow 10 places) unitsInOne) / 10 ^ places
  | _ => 0

theorem rounded_of_eq {places m n : Nat} {hm : IsCount m}
    (h : roundHalfEven (m * Nat.pow 10 places) unitsInOne = n) :
    (finite false m hm).rounded places = n / 10 ^ places := by
  rw [rounded, h, signedCount, if_neg Bool.false_ne_true, Int.cast_natCast]

theorem trimmed_finite (places : Nat) (s : Bool) {m : Nat} (hm : IsCount m) :
    (finite s m hm).trimmed places =
      String.ofList (trimmedDigits places (roundHalfEven (m * 10 ^ places) unitsInOne) s) := by
  rw [trimmed, fixedChars, Nat.pow_eq, trimmedDigits]

variable {x : Binary64}

/-- The trimmed text names the rounded value. -/
theorem decimalValue?_trimmed (hx : x.isFinite = true) (places : Nat) :
    decimalValue? (x.trimmed places).toList = some (x.rounded places) := by
  cases x with
  | nan => exact absurd hx Bool.false_ne_true
  | infinity => exact absurd hx Bool.false_ne_true
  | finite s m hm =>
      rw [trimmed_finite, String.toList_ofList, decimalValue?_trimmedDigits, rounded, Nat.pow_eq]

theorem abs_rounded_sub_le (hx : x.isFinite = true) (places : Nat) :
    |x.rounded places - (Number.float x).value| ≤ 1 / (2 * 10 ^ places) := by
  cases x with
  | nan => exact absurd hx Bool.false_ne_true
  | infinity => exact absurd hx Bool.false_ne_true
  | finite s m hm =>
      rw [mul_comm, ← div_div]
      exact (isNearest_iff.1 (isNearest_signedCount places m unitsInOne_pos s)).1

end Binary64

end Montage
