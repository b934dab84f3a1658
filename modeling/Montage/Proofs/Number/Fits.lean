import Montage.Number.Fixed
import Montage.Proofs.Number.Rounding

/-!
Numbers within the range of binary64, for which arithmetic and texts have a result.
-/

namespace Montage

/-- Rounding does not more than double a quotient, one that is zero apart. -/
theorem roundCount_le (num den : Nat) :
    roundCount num den ≤ 2 * (num / den) + 1 := by
  rw [roundCount, Nat.pow_eq]
  generalize hd : droppedBits num den = d
  have hpow : 2 ^ d ≤ num / den + 1 := by
    rcases Nat.eq_zero_or_pos (num / den) with hzero | hpos
    · rw [← hd, droppedBits, hzero]
      decide
    · calc 2 ^ d ≤ 2 ^ (num / den).log2 :=
            Nat.pow_le_pow_right (by decide) (hd ▸ Nat.sub_le _ _)
        _ ≤ num / den := Nat.log2_self_le hpos.ne'
        _ ≤ num / den + 1 := Nat.le_succ _
  calc roundHalfEven num (den * 2 ^ d) * 2 ^ d
      ≤ (num / (den * 2 ^ d) + 1) * 2 ^ d :=
        Nat.mul_le_mul_right _ (roundHalfEven_le_succ _ _)
    _ = num / den / 2 ^ d * 2 ^ d + 2 ^ d := by
        rw [Nat.div_div_eq_div_mul, Nat.add_mul, Nat.one_mul]
    _ ≤ num / den + (num / den + 1) :=
        Nat.add_le_add (Nat.div_mul_le_self _ _) hpow
    _ = 2 * (num / den) + 1 := by omega

namespace Number

variable {a b : Number} {k : Nat}

/-- The number is within the range of binary64. -/
def Fits (a : Number) : Prop := ∃ x, a.toBinary64 = .ok x

theorem fits_float (x : Binary64) : (Number.float x).Fits := ⟨x, rfl⟩

/-- The exponent of the greatest power of two within the range. -/
def greatestExponent : Nat := 1023

/-- The greatest power of two within the range. -/
def greatestPower : Nat := Nat.pow 2 greatestExponent

theorem two_mul_greatestPower_units : 2 * (greatestPower * unitsInOne) = unitsLimit := by
  decide +kernel

/-- A quotient with less than the greatest power of two in it is not infinite. -/
theorem isInfinite_ofRatio {num den : Nat} (negative : Bool)
    (h : num / den < greatestPower * unitsInOne) :
    (Binary64.ofRatio negative num den).isInfinite = false := by
  have hle := roundCount_le num den
  have hlimit := two_mul_greatestPower_units
  have hcount : roundCount num den < unitsLimit := by omega
  simp only [Binary64.ofRatio, hcount, ↓reduceDIte]
  rfl

/-- Whole numbers below the greatest power of two are within the range. -/
theorem fits_int {n : Int} (h : n.natAbs < greatestPower) : (Number.int n).Fits := by
  have hfinite : (Binary64.ofInt n).isInfinite = false := by
    refine isInfinite_ofRatio _ ?_
    rw [Nat.div_one]
    exact Nat.mul_lt_mul_of_pos_right h unitsInOne_pos
  exact ⟨Binary64.ofInt n, by
    simp only [toBinary64, hfinite, Bool.false_eq_true, ↓reduceIte]⟩

theorem exists_zipFloat (ha : a.Fits) (hb : b.Fits)
    (op : Binary64 → Binary64 → Binary64) : ∃ c, zipFloat op a b = .ok c := by
  obtain ⟨x, hx⟩ := ha
  obtain ⟨y, hy⟩ := hb
  exact exists_bind hx (exists_bind hy ⟨_, rfl⟩)

theorem fits_of_zipFloat {op : Binary64 → Binary64 → Binary64} {c : Number}
    (h : zipFloat op a b = .ok c) : a.Fits ∧ b.Fits := by
  obtain ⟨x, y, hx, hy, -⟩ := exists_of_zipFloat h
  exact ⟨⟨x, hx⟩, y, hy⟩

/-- A whole number that is not within the range stands beside a binary64 value. -/
inductive Clash : Number → Number → Prop where
  | left {n : Int} (h : ¬(Number.int n).Fits) (y : Binary64) : Clash (.int n) (.float y)
  | right (x : Binary64) {n : Int} (h : ¬(Number.int n).Fits) : Clash (.float x) (.int n)

/-- A sum fails only where its two numbers clash. -/
theorem exists_add_iff : (∃ c, a.add b = .ok c) ↔ ¬a.Clash b := by
  constructor
  · rintro ⟨c, hc⟩ hclash
    cases hclash with
    | left hm y => exact hm (fits_of_zipFloat hc).1
    | right x hn => exact hn (fits_of_zipFloat hc).2
  · intro hclash
    cases a with
    | int m =>
        cases b with
        | int n => exact ⟨_, rfl⟩
        | float y =>
            have hm : (Number.int m).Fits := by_contra fun hm => hclash (.left hm y)
            exact exists_zipFloat hm (fits_float y) _
    | float x =>
        cases b with
        | float y => exact exists_zipFloat (fits_float x) (fits_float y) _
        | int n =>
            have hn : (Number.int n).Fits := by_contra fun hn => hclash (.right x hn)
            exact exists_zipFloat (fits_float x) hn _

theorem exists_sub (ha : a.Fits) (hb : b.Fits) : ∃ c, a.sub b = .ok c := by
  cases a <;> cases b
  · exact ⟨_, rfl⟩
  all_goals exact exists_zipFloat ha hb _

theorem float_sub (x : Binary64) (b : Number) :
    (Number.float x).sub b = zipFloat Binary64.sub (.float x) b := by
  cases b <;> rfl

theorem zipFloat_eq {op : Binary64 → Binary64 → Binary64} {x y : Binary64}
    (ha : a.toBinary64 = .ok x) (hb : b.toBinary64 = .ok y) :
    zipFloat op a b = .ok (.float (op x y)) := by
  rw [zipFloat, ha, hb]
  rfl

theorem distance_eq {c : Number} (h : a.sub b = .ok c) :
    a.distance b = .ok c.abs := by
  rw [distance, h]
  rfl

theorem exists_trimmed (ha : a.Fits) (places : Nat) :
    ∃ text, a.trimmed places = .ok text := by
  obtain ⟨x, hx⟩ := ha
  exact exists_bind hx ⟨_, rfl⟩

theorem div_float_eq (a : Number) (y : Binary64) : a.div (.float y) = (do
    let x ← a.toBinary64
    if y.isZero then .error .divisionByZero else .ok (.float (x.div y))) := by
  cases a <;> rfl

/-- A number is divided by a binary64 value other than zero. -/
theorem div_float {x y : Binary64} (hx : a.toBinary64 = .ok x) (hy : y.isZero = false) :
    a.div (.float y) = .ok (.float (x.div y)) := by
  rw [div_float_eq, hx]
  exact if_neg (Bool.eq_false_iff.1 hy)

theorem exists_div_float (ha : a.Fits) {y : Binary64} (hy : y.isZero = false) :
    ∃ x, a.div (.float y) = .ok (.float x) := by
  obtain ⟨x, hx⟩ := ha
  exact ⟨x.div y, div_float hx hy⟩

theorem exists_seconds (ha : a.Fits) : ∃ text, a.seconds = .ok text := by
  have hthousand : (Binary64.ofInt 1000).isZero = false := by decide +kernel
  obtain ⟨x, hx⟩ := exists_div_float ha hthousand
  exact exists_bind hx (exists_trimmed (fits_float x) 3)

/-- A time is written in seconds just when it is within the range of binary64. -/
theorem exists_seconds_iff : (∃ text, a.seconds = .ok text) ↔ a.Fits := by
  constructor
  · rintro ⟨text, htext⟩
    obtain ⟨seconds, hdiv, -⟩ := bind_eq_ok.1 htext
    rw [div_float_eq] at hdiv
    obtain ⟨x, hx, -⟩ := bind_eq_ok.1 hdiv
    exact ⟨x, hx⟩
  · exact exists_seconds

/-- The number is a binary64 value, or a whole number of at most `2 ^ k`. -/
def Bounded (k : Nat) : Number → Prop
  | .int n => n.natAbs ≤ 2 ^ k
  | .float _ => True

instance (k : Nat) : (a : Number) → Decidable (a.Bounded k)
  | .int n => inferInstanceAs (Decidable (n.natAbs ≤ 2 ^ k))
  | .float _ => inferInstanceAs (Decidable True)

theorem Bounded.mono {j : Nat} (h : a.Bounded j) (hjk : j ≤ k) : a.Bounded k := by
  cases a with
  | float x => trivial
  | int n => exact (show n.natAbs ≤ 2 ^ j from h).trans (Nat.pow_le_pow_right Nat.two_pos hjk)

theorem Bounded.natAbs_lt {n : Int} (h : (Number.int n).Bounded k)
    (hk : k < greatestExponent) : n.natAbs < greatestPower := by
  have hle : n.natAbs ≤ 2 ^ k := h
  have hpow : ∀ e, k < e → 2 ^ k < Nat.pow 2 e :=
    fun e => Nat.pow_lt_pow_right Nat.one_lt_two
  unfold greatestPower
  exact hle.trans_lt (hpow greatestExponent hk)

theorem Bounded.fits (h : a.Bounded k) (hk : k < greatestExponent) : a.Fits := by
  cases a with
  | float x => exact fits_float x
  | int n => exact fits_int (h.natAbs_lt hk)

theorem bounded_zero : (0 : Number).Bounded k := Nat.zero_le _

theorem bounded_one : (1 : Number).Bounded k := Nat.one_le_two_pow

theorem Bounded.max (ha : a.Bounded k) (hb : b.Bounded k) : (a.max b).Bounded k := by
  rw [Number.max]
  split
  · exact hb
  · exact ha

theorem gives_zipFloat (ha : a.Bounded k) (hb : b.Bounded k) (hk : k < greatestExponent)
    (op : Binary64 → Binary64 → Binary64) (j : Nat) :
    Gives (Bounded j) (zipFloat op a b) := by
  obtain ⟨c, hc⟩ := exists_zipFloat (ha.fits hk) (hb.fits hk) op
  obtain ⟨x, y, -, -, rfl⟩ := exists_of_zipFloat hc
  exact ⟨_, hc, trivial⟩

theorem gives_add (ha : a.Bounded k) (hb : b.Bounded k) (hk : k < greatestExponent) :
    Gives (Bounded (k + 1)) (a.add b) := by
  cases a with
  | float x => exact gives_zipFloat ha hb hk _ _
  | int m =>
      cases b with
      | float y => exact gives_zipFloat ha hb hk _ _
      | int n =>
          have hm : m.natAbs ≤ 2 ^ k := ha
          have hn : n.natAbs ≤ 2 ^ k := hb
          refine .ok (show (m + n).natAbs ≤ 2 ^ (k + 1) from ?_)
          omega

theorem gives_sub (ha : a.Bounded k) (hb : b.Bounded k) (hk : k < greatestExponent) :
    Gives (Bounded (k + 1)) (a.sub b) := by
  cases a with
  | float x => exact gives_zipFloat ha hb hk _ _
  | int m =>
      cases b with
      | float y => exact gives_zipFloat ha hb hk _ _
      | int n =>
          have hm : m.natAbs ≤ 2 ^ k := ha
          have hn : n.natAbs ≤ 2 ^ k := hb
          refine .ok (show (m - n).natAbs ≤ 2 ^ (k + 1) from ?_)
          omega

theorem gives_mul {j : Nat} (ha : a.Bounded j) (hb : b.Bounded k) (hjk : j + k < greatestExponent) :
    Gives (Bounded (j + k)) (a.mul b) := by
  have hfloat : Gives (Bounded (j + k)) (zipFloat Binary64.mul a b) :=
    gives_zipFloat (ha.mono (Nat.le_add_right j k)) (hb.mono (Nat.le_add_left k j)) hjk _ _
  cases a with
  | float x => exact hfloat
  | int m =>
      cases b with
      | float y => exact hfloat
      | int n =>
          refine .ok (show (m * n).natAbs ≤ 2 ^ (j + k) from ?_)
          rw [Int.natAbs_mul, Nat.pow_add]
          exact Nat.mul_le_mul ha hb

theorem gives_mul_float (ha : a.Fits) (y : Binary64) : Gives Fits (a.mul (.float y)) := by
  obtain ⟨c, hc⟩ := exists_zipFloat ha (fits_float y) Binary64.mul
  obtain ⟨x, _, -, -, rfl⟩ := exists_of_zipFloat hc
  cases a <;> exact ⟨_, hc, fits_float _⟩

theorem gives_float_sub (x : Binary64) (hb : b.Fits) :
    Gives Fits ((Number.float x).sub b) := by
  obtain ⟨c, hc⟩ := exists_zipFloat (fits_float x) hb Binary64.sub
  obtain ⟨_, y, -, -, rfl⟩ := exists_of_zipFloat hc
  cases b <;> exact ⟨_, hc, fits_float _⟩

theorem Fits.max (ha : a.Fits) (hb : b.Fits) : (a.max b).Fits := by
  rw [Number.max]
  split
  · exact hb
  · exact ha

theorem Fits.min (ha : a.Fits) (hb : b.Fits) : (a.min b).Fits := by
  rw [Number.min]
  split
  · exact hb
  · exact ha

/-- Half of a number is a binary64 value. -/
theorem exists_half (ha : a.Bounded k) (hk : k < greatestExponent) :
    ∃ x, a.div 2 = .ok (.float x) := by
  cases a with
  | int m =>
      have hhalf : m.natAbs * unitsInOne / 2 < greatestPower * unitsInOne :=
        (Nat.div_le_self _ _).trans_lt
          (Nat.mul_lt_mul_of_pos_right (ha.natAbs_lt hk) unitsInOne_pos)
      have hfinite := isInfinite_ofRatio (decide (m < 0) != decide ((2 : Int) < 0)) hhalf
      have hdiv : (Number.int m).div 2 =
          if (2 : Int) = 0 then .error .divisionByZero
          else if (Binary64.ofRatio (decide (m < 0) != decide ((2 : Int) < 0))
              (m.natAbs * unitsInOne) 2).isInfinite then .error .quotientTooLarge
          else .ok (.float (Binary64.ofRatio (decide (m < 0) != decide ((2 : Int) < 0))
              (m.natAbs * unitsInOne) 2)) := rfl
      rw [hdiv, if_neg (by decide), hfinite]
      exact ⟨_, rfl⟩
  | float x =>
      have htwo : (2 : Number).toBinary64 = .ok (Binary64.ofInt 2) := by decide +kernel
      have hpos : (Binary64.ofInt 2).isZero = false := by decide +kernel
      have hdiv : (Number.float x).div 2 = (do
          let x ← (Number.float x).toBinary64
          let y ← (2 : Number).toBinary64
          if y.isZero then .error .divisionByZero else .ok (.float (x.div y))) := rfl
      have hx : (Number.float x).toBinary64 = .ok x := rfl
      rw [hdiv, hx, htwo]
      simp only [bind, Except.bind, hpos, Bool.false_eq_true, ↓reduceIte]
      exact ⟨_, rfl⟩

end Number

end Montage
