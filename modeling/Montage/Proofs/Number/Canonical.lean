import Montage.Proofs.Number.Reading

/-!
The trimmed text of a number is its canonical text.

A finite number has one text with at most so many places: that of the nearest multiple of the last
place, with no superfluous character in it.  The text depends on nothing but the exact value of the
number.  Writing the number that the text names gives the same text again, whether this number is
taken exactly, is held as it is by some number, or is read from the text and rounded for it.
-/

namespace Montage

open Text

/-- The trimmed text of a number of units of the last place. -/
def multipleText (places : Nat) (k : ℤ) : String :=
  String.ofList (trimmedDigits places k.natAbs (decide (k < 0)))

/-- The trimmed text of an exact value. -/
def exactText (places : Nat) (q : ℚ) : String :=
  multipleText places (nearestMultiple places q)

/-- Writing the number that a text names gives the text again. -/
structure WritesBack (places : Nat) (text : String) (r : ℚ) : Prop where
  /-- The number is taken exactly. -/
  exact : exactText places r = text
  /-- The number is held as it is. -/
  held : ∀ b : Number, b.Is r → b.IsExact → b.trimmed places = .ok text
  /-- The number is read from the text, and rounded for it. -/
  read : ∃ y, readBinary64? text = some y ∧ (Number.float y).trimmed places = .ok text

section Multiples

variable {places : Nat} {k : ℤ} {q : ℚ}

/-- Only zero loses its sign, and it is not written. -/
theorem multipleText_signedCount (places n : Nat) (negative : Bool) :
    multipleText places (Binary64.signedCount negative n) =
      String.ofList (trimmedDigits places n negative) := by
  rw [multipleText, natAbs_signedCount]
  cases n with
  | zero => rw [trimmedDigits_zero, trimmedDigits_zero]
  | succ n =>
      have hsign : decide (Binary64.signedCount negative (n + 1) < 0) = negative := by
        cases negative with
        | false => exact decide_eq_false (not_lt.2 (Int.natCast_nonneg (n + 1)))
        | true => exact decide_eq_true (Int.negSucc_lt_zero n)
      rw [hsign]

theorem isTrimmed_multipleText (places : Nat) (k : ℤ) :
    IsTrimmed places (multipleText places k).toList := by
  rw [multipleText, String.toList_ofList]
  exact isTrimmed_trimmedDigits places _ _

theorem multipleText_ne (places : Nat) (k : ℤ) : multipleText places k ≠ "-0" := by
  intro heq
  have hchars := congrArg String.toList heq
  rw [multipleText, String.toList_ofList] at hchars
  exact dropZeroSign_ne _ hchars

theorem decimalValue?_multipleText (places : Nat) (k : ℤ) :
    decimalValue? (multipleText places k).toList = some ((k : ℚ) / 10 ^ places) := by
  rw [multipleText, String.toList_ofList, decimalValue?_trimmedDigits, signedCount_natAbs]

theorem exactText_eq (h : IsNearest places k q) : exactText places q = multipleText places k := by
  rw [exactText, (isNearest_nearestMultiple places q).unique h]

end Multiples

section Numbers

variable {places : Nat} {k : ℤ} {q : ℚ} {a : Number} {x : Binary64}

/-- A finite value is written as its nearest multiple. -/
theorem Binary64.trimmed_eq (hx : x.isFinite = true)
    (h : IsNearest places k (Number.float x).value) : x.trimmed places = multipleText places k := by
  cases x with
  | nan => exact absurd hx Bool.false_ne_true
  | infinity => exact absurd hx Bool.false_ne_true
  | finite s m hm =>
      rw [h.unique (isNearest_signedCount places m unitsInOne_pos s), multipleText_signedCount,
        trimmed_finite]

/-- The text of an exact number depends on nothing but its exact value. -/
theorem Number.trimmed_of_is (ha : a.Is q) (hexact : a.IsExact) (h : IsNearest places k q) :
    a.trimmed places = .ok (multipleText places k) := by
  obtain ⟨x, hx, hfinite, hvalue⟩ := ha.exists_binary64 hexact
  rw [← hvalue] at h
  rw [Number.trimmed, hx, ← Binary64.trimmed_eq hfinite h]
  rfl

/-- Writing the number that the text of a finite value names gives the text again. -/
theorem Binary64.writesBack (hx : x.isFinite = true)
    (h : IsNearest places k (Number.float x).value) :
    WritesBack places (multipleText places k) (k / 10 ^ places) := by
  have hself := isNearest_self places k
  have hrounded : x.rounded places = k / 10 ^ places := by
    have hnamed := decimalValue?_trimmed hx places
    rw [trimmed_eq hx h, decimalValue?_multipleText] at hnamed
    exact (Option.some.inj hnamed).symm
  obtain ⟨y, hread, hfinite, hcloser⟩ := exists_readBinary64?_trimmed hx places
  rw [hrounded] at hcloser
  rw [trimmed_eq hx h] at hread
  constructor
  case exact => exact exactText_eq hself
  case held => exact fun b hb hexact => Number.trimmed_of_is hb hexact hself
  case read =>
    refine ⟨y, hread, ?_⟩
    rw [← trimmed_eq hfinite (h.of_closer hcloser)]
    rfl

end Numbers

/-- A finite number that binary64 holds is written in its canonical text with so many places.  The
text names the nearest multiple of the last place, and writing what it names gives it again. -/
theorem Number.trimmed_canonical {a : Number} {q : ℚ} (ha : a.Is q) (hexact : a.IsExact)
    (places : Nat) :
    ∃ (text : String) (k : ℤ), a.trimmed places = .ok text ∧ text = exactText places q ∧
      IsTrimmed places text.toList ∧ text ≠ "-0" ∧
      IsNearest places k q ∧ decimalValue? text.toList = some ((k : ℚ) / 10 ^ places) ∧
      WritesBack places text (k / 10 ^ places) := by
  have hnearest := isNearest_nearestMultiple places q
  obtain ⟨x, -, hfinite, hvalue⟩ := ha.exists_binary64 hexact
  refine ⟨exactText places q, nearestMultiple places q, ?_, rfl, ?_, ?_, hnearest, ?_, ?_⟩
  · exact Number.trimmed_of_is ha hexact hnearest
  · exact isTrimmed_multipleText places _
  · exact multipleText_ne places _
  · exact decimalValue?_multipleText places _
  · exact Binary64.writesBack hfinite (hvalue ▸ hnearest)

example : exactText 3 (1 / 16) = "0.062" := by decide +kernel

/-- Ten and a half below zero, as far from ten as from eleven. -/
def tenAndHalf : Number := .float (Binary64.ofRatio true (21 * unitsInOne) 2)

theorem trimmed_canonical_tenAndHalf :
    tenAndHalf.Is (-21 / 2) ∧ tenAndHalf.IsExact ∧
      ∃ (text : String) (k : ℤ), tenAndHalf.trimmed 0 = .ok text ∧ text = exactText 0 (-21 / 2) ∧
        IsTrimmed 0 text.toList ∧ text ≠ "-0" ∧
        IsNearest 0 k (-21 / 2) ∧ decimalValue? text.toList = some ((k : ℚ) / 10 ^ 0) ∧
        WritesBack 0 text (k / 10 ^ 0) := by
  have his : tenAndHalf.Is (-21 / 2) := by
    obtain ⟨half, hpos, hunits, hplace⟩ : ∃ half : Nat, 0 < half ∧ unitsInOne = 2 * half ∧
        tenAndHalf.place? = some (.point (-(21 * half : Nat))) :=
      ⟨2 ^ 1073, by decide +kernel, by decide +kernel, by decide +kernel⟩
    refine ⟨_, hplace, ?_⟩
    rw [hunits, Int.cast_neg, Int.cast_natCast, Nat.cast_mul, Nat.cast_mul, ← neg_mul,
      mul_div_mul_right _ _ (Nat.cast_ne_zero.2 hpos.ne')]
    norm_num
  have hexact : tenAndHalf.IsExact := Number.isExact_float _
  exact ⟨his, hexact, Number.trimmed_canonical his hexact 0⟩

end Montage
