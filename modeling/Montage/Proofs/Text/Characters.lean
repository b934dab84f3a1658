import Mathlib.Data.List.TakeWhile
import Montage.Document.Display
import Montage.Proofs.Fault

/-!
The characters that texts are made of.

Whatever way a number is written, its text is made of digits, signs, the point, and the letters of
an exponent, of infinity and of NaN.
-/

namespace Montage

namespace Text

/-- All characters of a text are of a kind. -/
def MadeOf (kind : Char → Bool) (s : List Char) : Prop := ∀ c ∈ s, kind c = true

instance (kind : Char → Bool) (s : List Char) : Decidable (MadeOf kind s) :=
  decidable_of_iff (s.all kind = true) List.all_eq_true

section Kinds

variable {kind wider : Char → Bool} {s t : List Char}

theorem madeOf_nil : MadeOf kind [] := List.forall_mem_nil _

theorem MadeOf.append (hs : MadeOf kind s) (ht : MadeOf kind t) : MadeOf kind (s ++ t) :=
  List.forall_mem_append.2 ⟨hs, ht⟩

theorem MadeOf.cons {c : Char} (hc : kind c = true) (hs : MadeOf kind s) :
    MadeOf kind (c :: s) :=
  List.forall_mem_cons.2 ⟨hc, hs⟩

theorem MadeOf.subset (ht : MadeOf kind t) (h : s ⊆ t) : MadeOf kind s :=
  fun c hc => ht c (h hc)

theorem MadeOf.imp (hs : MadeOf kind s) (h : ∀ c, kind c = true → wider c = true) :
    MadeOf wider s :=
  fun c hc => h c (hs c hc)

theorem madeOf_replicate {c : Char} (hc : kind c = true) (n : Nat) :
    MadeOf kind (List.replicate n c) := by
  intro d hd
  rw [List.eq_of_mem_replicate hd]
  exact hc

theorem madeOf_ite {c : Prop} [Decidable c] (hs : MadeOf kind s) (ht : MadeOf kind t) :
    MadeOf kind (if c then s else t) := by
  split
  · exact hs
  · exact ht

/-- A character of a kind is none that is not of it. -/
theorem ne_of_kind {c d : Char} (hc : kind c = true) (hd : kind d = false) : c ≠ d := by
  rintro rfl
  rw [hc] at hd
  contradiction

theorem MadeOf.not_mem (hs : MadeOf kind s) {c : Char} (hc : kind c = false) : c ∉ s :=
  fun hmem => ne_of_kind (hs c hmem) hc rfl

/-- A character put between two parts. -/
theorem MadeOf.split {c : Char} (hs : MadeOf kind s) (hc : kind c = true) (n : Nat) :
    MadeOf kind (s.take n ++ c :: s.drop n) :=
  (hs.subset (List.take_subset n s)).append (.cons hc (hs.subset (List.drop_subset n s)))

end Kinds

/-- Characters of number texts. -/
def isNumeral (c : Char) : Bool := c.isDigit || "-+.einfa".toList.contains c

theorem mem_of_isDigit {c : Char} (hc : c.isDigit = true) : c ∈ "0123456789".toList := by
  have hcodes : ∀ n < 58, 48 ≤ n → Char.ofNat n ∈ "0123456789".toList := by decide
  obtain ⟨hleast, hmost⟩ := Char.isDigit_iff_toNat.1 hc
  rw [← Char.ofNat_toNat c]
  exact hcodes c.toNat (Nat.lt_succ_of_le hmost) hleast

/-- A kind has the characters of number texts when it has each of them. -/
theorem kind_of_isNumeral {kind : Char → Bool} (hkind : MadeOf kind "0123456789-+.einfa".toList)
    {c : Char} (h : isNumeral c = true) : kind c = true := by
  have hsplit : "0123456789-+.einfa".toList = "0123456789".toList ++ "-+.einfa".toList := by decide
  rw [hsplit] at hkind
  rcases Bool.or_eq_true_iff.1 h with hdigit | hsign
  · exact hkind c (List.mem_append_left _ (mem_of_isDigit hdigit))
  · exact hkind c (List.mem_append_right _ (List.contains_iff_mem.1 hsign))

theorem madeOf_toDigits (n : Nat) : MadeOf isNumeral (Nat.toDigits 10 n) := by
  intro c hc
  rw [isNumeral, Nat.isDigit_of_mem_toDigits (by decide) (by decide) hc, Bool.true_or]

theorem madeOf_padded (width n : Nat) :
    MadeOf isNumeral (List.replicate width '0' ++ Nat.toDigits 10 n) :=
  (madeOf_replicate (by decide) width).append (madeOf_toDigits n)

theorem madeOf_sign (negative : Prop) [Decidable negative] :
    MadeOf isNumeral (if negative then ['-'] else []) :=
  madeOf_ite (by decide) madeOf_nil

end Text

open Text

section Fixed

theorem madeOf_placedDigits (n places : Nat) :
    MadeOf isNumeral (placedDigits n places) := by
  unfold placedDigits
  dsimp only
  split
  · exact madeOf_padded _ n
  · exact (madeOf_padded _ n).split (by decide) _

theorem madeOf_fixedChars (places : Nat) (x : Binary64) :
    MadeOf isNumeral (x.fixedChars places) := by
  cases x with
  | nan => exact (by decide : MadeOf isNumeral ['n', 'a', 'n'])
  | infinity s => exact (madeOf_sign _).append (by decide)
  | finite s m h => exact (madeOf_sign _).append (madeOf_placedDigits _ places)

theorem trimPlaces_subset (s : List Char) : trimPlaces s ⊆ s := by
  rw [trimPlaces]
  split
  · intro c hc
    rw [List.mem_reverse] at hc
    exact List.mem_reverse.1 (List.dropWhile_subset _ (List.dropWhile_subset _ hc))
  · exact List.Subset.refl s

theorem Binary64.madeOf_trimmed (places : Nat) (x : Binary64) :
    MadeOf isNumeral (x.trimmed places).toList := by
  rw [Binary64.trimmed, String.toList_ofList, dropZeroSign]
  split
  · decide
  · exact (madeOf_fixedChars places x).subset (trimPlaces_subset _)

/-- No zero stands in front of the digits of a number. -/
theorem head?_toDigits {n : Nat} (hn : n ≠ 0) : (Nat.toDigits 10 n).head? ≠ some '0' := by
  induction n using Nat.strong_induction_on with
  | _ n ih =>
      rw [Nat.toDigits_eq_if (by decide)]
      split
      · next hlt =>
          have hdigit : ∀ d < 10, d ≠ 0 → [d.digitChar].head? ≠ some '0' := by decide
          exact hdigit n hlt hn
      · next hge =>
          rw [List.head?_append_of_ne_nil _ Nat.toDigits_ne_nil]
          exact ih (n / 10) (by omega) (by omega)

/-- In front of the point a zero is put only where there is no digit. -/
theorem leading_padded (n places : Nat) :
    let padded := List.replicate (places + 1 - (Nat.toDigits 10 n).length) '0' ++ Nat.toDigits 10 n
    (padded.take (padded.length - places)).head? = some '0' →
      padded.take (padded.length - places) = ['0'] := by
  intro padded hhead
  have hlength : padded.length =
      places + 1 - (Nat.toDigits 10 n).length + (Nat.toDigits 10 n).length := by
    rw [List.length_append, List.length_replicate]
  by_cases hshort : (Nat.toDigits 10 n).length ≤ places
  · rw [show padded.length - places = 1 by omega] at hhead ⊢
    cases hcases : padded with
    | nil => simp [hcases] at hhead
    | cons c rest =>
        rw [hcases] at hhead
        exact congrArg (fun c => [c]) (Option.some.inj hhead)
  · have hpadded : padded = Nat.toDigits 10 n := by
      rw [← List.nil_append (Nat.toDigits 10 n), ← List.replicate_zero,
        ← Nat.sub_eq_zero_of_le (not_le.1 hshort)]
    rw [hpadded] at hhead ⊢
    have hpos : (Nat.toDigits 10 n).length - places ≠ 0 := by omega
    rw [List.head?_take, if_neg hpos] at hhead
    obtain rfl : n = 0 := not_not.1 fun hn => head?_toDigits hn hhead
    rw [Nat.toDigits_zero] at hpos ⊢
    exact List.take_of_length_le (Nat.one_le_iff_ne_zero.2 hpos)

/-- The digits of a number of units of the last place, parted where the point stands. -/
structure PlacedAs (n places : Nat) (whole fraction : List Char) : Prop where
  ne_nil : whole ≠ []
  wholeDigits : MadeOf Char.isDigit whole
  leading : whole.head? = some '0' → whole = ['0']
  fractionDigits : MadeOf Char.isDigit fraction
  length : fraction.length = places
  value : Nat.ofDigitChars 10 (whole ++ fraction) 0 = n

theorem exists_placedAs (n places : Nat) :
    ∃ whole fraction, PlacedAs n places whole fraction ∧
      placedDigits n places = if places = 0 then whole else whole ++ ['.'] ++ fraction := by
  unfold placedDigits
  dsimp only
  have hlong : places < (List.replicate (places + 1 - (Nat.toDigits 10 n).length) '0' ++
      Nat.toDigits 10 n).length := by
    rw [List.length_append, List.length_replicate]
    omega
  have hdigits : MadeOf Char.isDigit (List.replicate (places + 1 - (Nat.toDigits 10 n).length) '0'
      ++ Nat.toDigits 10 n) :=
    (madeOf_replicate (by decide) _).append fun _ =>
      Nat.isDigit_of_mem_toDigits (by decide) (by decide)
  have hvalue : Nat.ofDigitChars 10 (List.replicate (places + 1 - (Nat.toDigits 10 n).length) '0'
      ++ Nat.toDigits 10 n) 0 = n := by
    rw [Nat.ofDigitChars_append, Nat.ofDigitChars_replicate_zero, Nat.mul_zero,
      Nat.ofDigitChars_ten_toDigits]
  have hleading := leading_padded n places
  generalize List.replicate (places + 1 - (Nat.toDigits 10 n).length) '0' ++
    Nat.toDigits 10 n = padded at hlong hdigits hvalue hleading
  refine ⟨padded.take (padded.length - places), padded.drop (padded.length - places), ?_, ?_⟩
  · constructor
    case ne_nil =>
      rw [← List.length_pos_iff, List.length_take]
      omega
    case wholeDigits => exact hdigits.subset (List.take_subset _ _)
    case leading => exact hleading
    case fractionDigits => exact hdigits.subset (List.drop_subset _ _)
    case length =>
      rw [List.length_drop]
      omega
    case value => rw [List.take_append_drop, hvalue]
  · split
    · next hnone => rw [hnone, Nat.sub_zero, List.take_length]
    · rw [List.append_assoc]
      rfl

/-- A text that begins with something else than a point. -/
def BeginsWhole (s : List Char) : Prop := ∃ c rest, c ≠ '.' ∧ s = c :: rest

theorem beginsWhole_placedDigits (n places : Nat) : BeginsWhole (placedDigits n places) := by
  obtain ⟨whole, fraction, h, hplaced⟩ := exists_placedAs n places
  obtain ⟨c, rest, rfl⟩ := List.exists_cons_of_ne_nil h.ne_nil
  have hc : c ≠ '.' := ne_of_kind (h.wholeDigits c List.mem_cons_self) (by decide)
  rw [hplaced]
  split
  · exact ⟨c, rest, hc, rfl⟩
  · exact ⟨c, _, hc, rfl⟩

theorem beginsWhole_fixedChars (places : Nat) (x : Binary64) :
    BeginsWhole (x.fixedChars places) := by
  have hsign : ∀ (negative : Bool) {s : List Char}, BeginsWhole s →
      BeginsWhole ((if negative then ['-'] else []) ++ s) := by
    intro negative s hs
    cases negative
    · exact hs
    · exact ⟨'-', s, by decide, rfl⟩
  cases x with
  | nan => exact ⟨'n', _, by decide, rfl⟩
  | infinity negative => exact hsign negative ⟨'i', _, by decide, rfl⟩
  | finite negative m h => exact hsign negative (beginsWhole_placedDigits _ places)

/-- What stands in front of the point is never dropped. -/
theorem trimPlaces_ne_nil {s : List Char} (h : BeginsWhole s) : trimPlaces s ≠ [] := by
  obtain ⟨c, rest, hc, rfl⟩ := h
  rw [trimPlaces]
  split
  · next hpoint =>
      have hmem : '.' ∈ rest := by
        rcases List.mem_cons.1 (List.contains_iff_mem.1 hpoint) with hfirst | hrest
        · exact absurd hfirst.symm hc
        · exact hrest
      have hkept : rest.reverse.dropWhile (· == '0') ≠ [] := by
        intro hnil
        have hzero := List.dropWhile_eq_nil_iff.1 hnil '.' (List.mem_reverse.2 hmem)
        exact absurd hzero (by decide)
      intro hnil
      rw [List.reverse_eq_nil_iff, List.dropWhile_eq_nil_iff, List.reverse_cons,
        List.dropWhile_append, if_neg (by simpa using hkept)] at hnil
      exact hc (beq_iff_eq.1 (hnil c (List.mem_append_right _ (List.mem_singleton_self c))))
  · exact List.cons_ne_nil c rest

theorem Binary64.trimmed_ne_nil (places : Nat) (x : Binary64) :
    (x.trimmed places).toList ≠ [] := by
  rw [Binary64.trimmed, String.toList_ofList, dropZeroSign]
  split
  · decide
  · exact trimPlaces_ne_nil (beginsWhole_fixedChars places x)

end Fixed

section Shortest

theorem madeOf_positionalText {digits : List Char} (h : MadeOf isNumeral digits)
    (exponent : Int) : MadeOf isNumeral (positionalText digits exponent) := by
  unfold positionalText
  split
  · exact (h.append (madeOf_replicate (by decide) _)).append (by decide)
  · exact ((madeOf_replicate (by decide) _).append h).split (by decide) _

theorem madeOf_exponentText {digits : List Char} (h : MadeOf isNumeral digits)
    (exponent : Int) : MadeOf isNumeral (exponentText digits exponent) := by
  unfold exponentText
  apply MadeOf.append _ (madeOf_toDigits _)
  refine .append ?_ (.cons (by decide) (.cons ?_ (madeOf_replicate (by decide) _)))
  · cases digits with
    | nil => exact h
    | cons d rest =>
        cases rest with
        | nil => exact h
        | cons d' more =>
            have hmore := h.subset (List.subset_cons_self d (d' :: more))
            exact .cons (h d List.mem_cons_self) (.cons (by decide) hmore)
  · split <;> decide

theorem madeOf_countText (units : Nat) : MadeOf isNumeral (countText units) := by
  unfold countText
  split
  · decide
  · have hdigits : MadeOf isNumeral (stripZeros (Nat.toDigits 10 (shortestDecimal units).digits)
        (shortestDecimal units).exponent).1 :=
      (madeOf_toDigits _).subset (List.take_subset _ _)
    dsimp only
    split
    · exact madeOf_positionalText hdigits _
    · exact madeOf_exponentText hdigits _

theorem Binary64.madeOf_shortest (x : Binary64) : MadeOf isNumeral x.shortest.toList := by
  rw [Binary64.shortest, String.toList_ofList]
  cases x with
  | nan => decide
  | infinity s => exact (madeOf_sign _).append (by decide)
  | finite s m h => exact (madeOf_sign _).append (madeOf_countText m)

theorem madeOf_integerText (n : Int) : MadeOf isNumeral (integerText n).toList := by
  rw [integerText, String.toList_ofList]
  exact (madeOf_sign _).append (madeOf_toDigits _)

end Shortest

section Parameters

theorem madeOf_parameterOf (x : Binary64) :
    MadeOf isNumeral (Number.parameterOf x).toList := by
  unfold Number.parameterOf
  split
  · exact madeOf_integerText _
  · exact x.madeOf_shortest

theorem positionalText_ne_nil (digits : List Char) (exponent : Int) :
    positionalText digits exponent ≠ [] := by
  unfold positionalText
  split <;> simp

theorem exponentText_ne_nil (digits : List Char) (exponent : Int) :
    exponentText digits exponent ≠ [] := by
  simp [exponentText]

theorem countText_ne_nil (units : Nat) : countText units ≠ [] := by
  unfold countText
  split
  · decide
  · dsimp only
    split
    · exact positionalText_ne_nil _ _
    · exact exponentText_ne_nil _ _

theorem integerText_ne_nil (n : Int) : (integerText n).toList ≠ [] := by
  rw [integerText, String.toList_ofList]
  exact List.append_ne_nil_of_right_ne_nil _ Nat.toDigits_ne_nil

theorem Binary64.shortest_ne_nil (x : Binary64) : x.shortest.toList ≠ [] := by
  rw [Binary64.shortest, String.toList_ofList]
  cases x with
  | nan => decide
  | infinity s => simp [Binary64.shortestChars]
  | finite s m h => simp [Binary64.shortestChars, countText_ne_nil]

/-- The text of a number is never empty. -/
theorem Number.text_ne_nil (a : Number) : a.text.toList ≠ [] := by
  cases a with
  | int n => exact integerText_ne_nil n
  | float x => exact x.shortest_ne_nil

/-- The text of a parameter is never empty. -/
theorem parameterOf_ne_nil (x : Binary64) : (Number.parameterOf x).toList ≠ [] := by
  unfold Number.parameterOf
  split
  · exact integerText_ne_nil _
  · exact x.shortest_ne_nil

/-- A text that is written for a number. -/
def IsNumeral (s : String) : Prop := MadeOf isNumeral s.toList

theorem yields_parameter (a : Number) : Yields IsNumeral a.parameter :=
  .bind .any fun x _ => .ok (madeOf_parameterOf x)

theorem yields_trimmed (a : Number) (places : Nat) : Yields IsNumeral (a.trimmed places) :=
  .bind .any fun x _ => .ok (x.madeOf_trimmed places)

theorem yields_seconds (a : Number) : Yields IsNumeral a.seconds :=
  .bind .any fun seconds _ => yields_trimmed seconds _

/-- The text of seconds is never empty. -/
theorem yields_seconds_ne_nil (a : Number) : Yields (fun s => s.toList ≠ []) a.seconds :=
  .bind .any fun _ _ => .bind .any fun x _ => .ok (x.trimmed_ne_nil 3)

theorem isNumeral_text (a : Number) : IsNumeral a.text := by
  cases a with
  | int n => exact madeOf_integerText n
  | float x => exact x.madeOf_shortest

theorem Document.yields_parameter (d : Document) : Yields IsNumeral d.parameter :=
  .bind .any fun x _ => .ok (madeOf_parameterOf x)

/-- A number on its own is written as its text. -/
theorem Document.yields_written (a : Number) :
    Yields IsNumeral (Document.number a).written := by
  rw [Document.written]
  split
  · exact .error _
  · exact .ok (isNumeral_text a)

end Parameters

end Montage
