import Mathlib.Algebra.Order.Field.Rat
import Mathlib.Data.Int.CharZero
import Mathlib.Tactic.Ring
import Montage.Proofs.Number.AtMost

/-!
Arithmetic without rounding.

Whole numbers are never rounded, as long as no binary64 value is among them; and binary64 holds all
whole numbers up to `2 ^ 53`, so that nothing is rounded that stays among these.
-/

namespace Montage

/-- Binary64 holds the whole numbers up to `2 ^ 53`. -/
theorem isCount_whole {n : Nat} (h : n ≤ 2 ^ 53) : IsCount (n * unitsInOne) := by
  have hlt : 2 ^ 53 * unitsInOne < unitsLimit := by decide +kernel
  refine ⟨?_, (Nat.mul_le_mul_right _ h).trans_lt hlt⟩
  unfold unitsInOne
  exact dvd_scaled h unitExponent

/-- A count is at most a whole number that is a count. -/
theorem IsCount.exists_whole {m : Nat} (hm : IsCount m) :
    ∃ n, IsCount (n * unitsInOne) ∧ m ≤ n * unitsInOne := by
  obtain ⟨e, he⟩ : ∃ e, unitsInOne = 2 ^ e := by
    unfold unitsInOne
    generalize unitExponent = e
    exact ⟨e, rfl⟩
  by_cases hsmall : m ≤ 2 ^ 53 * unitsInOne
  · exact ⟨2 ^ 53, isCount_whole le_rfl, hsmall⟩
  · -- beyond `2 ^ 53` the last of 53 bits is a whole number
    rw [not_le] at hsmall
    obtain ⟨n, hn⟩ : unitsInOne ∣ m := by
      rw [he] at hsmall ⊢
      have hlog : 53 + e ≤ m.log2 := by
        rw [Nat.le_log2 (Nat.zero_lt_of_lt hsmall).ne', Nat.pow_add]
        exact hsmall.le
      exact (Nat.pow_dvd_pow 2 (by omega)).trans hm.1
    rw [Nat.mul_comm] at hn
    exact ⟨n, hn ▸ hm, hn.le⟩

/-- A number of such a size is held, whatever its kind. -/
theorem Number.AtMost.isExact {a : Number} (h : a.AtMost (2 ^ 53)) : a.IsExact := by
  cases a with
  | float x => exact isExact_float x
  | int n => exact isExact_int (isCount_whole (atMost_int.1 h))

/-- A whole number is its size with its sign. -/
theorem signedCount_natAbs (n : Int) : Binary64.signedCount (decide (n < 0)) n.natAbs = n := by
  rw [Binary64.signedCount]
  split
  · next hneg => rw [Int.ofNat_natAbs_of_nonpos (of_decide_eq_true hneg).le, neg_neg]
  · next hneg =>
      rw [decide_eq_true_eq, not_lt] at hneg
      exact Int.natAbs_of_nonneg hneg

namespace Number

variable {a b : Number} {m n : Int} {q : ℚ}

/-- The number is finite, and this is its exact value. -/
def Is (a : Number) (q : ℚ) : Prop :=
  ∃ n : Int, a.place? = some (.point n) ∧ (n : ℚ) / unitsInOne = q

/-- Numbers of one value are equal, of whichever kind they are. -/
theorem Is.eq (ha : a.Is q) (hb : b.Is q) : a.eq b = true := by
  obtain ⟨m, hm, hmq⟩ := ha
  obtain ⟨n, hn, hnq⟩ := hb
  have hunits : (unitsInOne : ℚ) ≠ 0 := Nat.cast_ne_zero.2 unitsInOne_pos.ne'
  rw [← hnq, div_left_inj' hunits, Int.cast_inj] at hmq
  rw [eq_iff hm hn, hmq]

theorem is_whole_iff : a.Is (n : ℚ) ↔ a.place? = some (.point (n * unitsInOne)) := by
  have hunits : (unitsInOne : ℚ) ≠ 0 := Nat.cast_ne_zero.2 unitsInOne_pos.ne'
  constructor
  · rintro ⟨k, hk, hkn⟩
    rw [div_eq_iff hunits] at hkn
    rw [hk, show k = n * unitsInOne by exact_mod_cast hkn]
  · intro h
    refine ⟨_, h, ?_⟩
    push_cast
    exact mul_div_cancel_right₀ _ hunits

theorem is_int (n : Int) : (Number.int n).Is (n : ℚ) := is_whole_iff.2 rfl

theorem le_iff_of_is (ha : a.Is (m : ℚ)) (hb : b.Is (n : ℚ)) : a.le b = true ↔ m ≤ n := by
  rw [le_iff (is_whole_iff.1 ha) (is_whole_iff.1 hb), Place.point_le_point,
    mul_le_mul_iff_left₀ units_pos]

theorem lt_iff_of_is (ha : a.Is (m : ℚ)) (hb : b.Is (n : ℚ)) : a.lt b = true ↔ m < n := by
  rw [lt_iff (is_whole_iff.1 ha) (is_whole_iff.1 hb), Place.point_lt_point,
    mul_lt_mul_iff_left₀ units_pos]

/-- The greater of two whole numbers is the second one, if the first one is less. -/
theorem max_eq_right_of_is (ha : a.Is (m : ℚ)) (hb : b.Is (n : ℚ)) (h : m < n) : a.max b = b :=
  if_pos ((lt_iff_of_is ha hb).2 h)

theorem Is.max_right (ha : a.Is (m : ℚ)) (hb : b.Is (n : ℚ)) (h : m ≤ n) :
    (a.max b).Is (n : ℚ) := by
  rcases h.lt_or_eq with hlt | rfl
  · rwa [max_eq_right_of_is ha hb hlt]
  · rw [Number.max]
    split
    · exact hb
    · exact ha

/-- A whole number up to `2 ^ 53` is the same in binary64. -/
theorem Is.exists_finite (h : a.Is (n : ℚ)) (hn : n.natAbs ≤ 2 ^ 53) :
    ∃ s k hk, a.toBinary64 = .ok (.finite s k hk) ∧
      Binary64.signedCount s k = n * unitsInOne := by
  rw [is_whole_iff] at h
  obtain ⟨x, hx, hplace⟩ : a.IsExact := by
    cases a with
    | float x => exact isExact_float x
    | int k =>
        rw [place?_int, Option.some.injEq, Place.point.injEq,
          mul_left_inj' units_pos.ne'] at h
        exact isExact_int (h ▸ isCount_whole hn)
  rw [h] at hplace
  rcases x with _ | ⟨_ | _⟩ | ⟨s, k, hk⟩
  · simp only [place?, reduceCtorEq] at hplace
  · simp only [place?, Option.some.injEq, reduceCtorEq] at hplace
  · simp only [place?, Option.some.injEq, reduceCtorEq] at hplace
  · exact ⟨s, k, hk, hx, Place.point.inj (Option.some.inj hplace)⟩

/-- Such a sum is not rounded. -/
theorem is_ofSum (hn : n.natAbs ≤ 2 ^ 53) (zeroSign : Bool) :
    (Number.float (Binary64.ofSum (n * unitsInOne) zeroSign)).Is (n : ℚ) := by
  rw [is_whole_iff, Binary64.ofSum]
  split
  · next hzero =>
      rw [hzero]
      cases zeroSign <;> rfl
  · have hcount : IsCount (n * unitsInOne : Int).natAbs := by
      rw [Int.natAbs_mul, Int.natAbs_natCast]
      exact isCount_whole hn
    rw [Binary64.ofRatio_of_isCount hcount, place?, signedCount_natAbs]

/-- What an operation gives in binary64 for two whole numbers up to `2 ^ 53`. -/
theorem Is.exists_zipFloat {op : Binary64 → Binary64 → Binary64} (ha : a.Is (m : ℚ))
    (hb : b.Is (n : ℚ)) (hm : m.natAbs ≤ 2 ^ 53) (hn : n.natAbs ≤ 2 ^ 53)
    (hop : ∀ s i hi t j hj, Binary64.signedCount s i = m * unitsInOne →
      Binary64.signedCount t j = n * unitsInOne →
        (Number.float (op (.finite s i hi) (.finite t j hj))).Is q) :
    ∃ c, zipFloat op a b = .ok c ∧ c.Is q := by
  obtain ⟨s, i, hi, hx, hs⟩ := ha.exists_finite hm
  obtain ⟨t, j, hj, hy, ht⟩ := hb.exists_finite hn
  refine ⟨_, ?_, hop s i hi t j hj hs ht⟩
  rw [zipFloat, hx, hy]
  rfl

theorem Is.eq_of_int {k : Int} (h : (Number.int k).Is (n : ℚ)) : k = n := by
  rw [is_whole_iff, place?_int, Option.some.injEq, Place.point.injEq,
    mul_left_inj' units_pos.ne'] at h
  exact h

/-- Two whole numbers give a whole number; elsewhere an operation is that of binary64. -/
theorem Is.exists_of_kinds {f : Number → Number → Except Fault Number}
    {op : Binary64 → Binary64 → Binary64} {k : Int → Int → Int} (ha : a.Is (m : ℚ))
    (hb : b.Is (n : ℚ)) (hint : ∀ i j, f (.int i) (.int j) = .ok (.int (k i j)))
    (hleft : ∀ x b, f (.float x) b = zipFloat op (.float x) b)
    (hright : ∀ i y, f (.int i) (.float y) = zipFloat op (.int i) (.float y))
    (hzip : ∃ c, zipFloat op a b = .ok c ∧ c.Is (k m n : ℚ)) :
    ∃ c, f a b = .ok c ∧ c.Is (k m n : ℚ) := by
  cases a with
  | float x =>
      rw [hleft]
      exact hzip
  | int i =>
      cases b with
      | float y =>
          rw [hright]
          exact hzip
      | int j =>
          obtain rfl := ha.eq_of_int
          obtain rfl := hb.eq_of_int
          exact ⟨_, hint i j, is_int _⟩

theorem Is.exists_add (ha : a.Is (m : ℚ)) (hb : b.Is (n : ℚ)) (hm : m.natAbs ≤ 2 ^ 53)
    (hn : n.natAbs ≤ 2 ^ 53) (hsum : (m + n).natAbs ≤ 2 ^ 53) :
    ∃ c, a.add b = .ok c ∧ c.Is ((m + n : Int) : ℚ) := by
  refine ha.exists_of_kinds (k := fun m n => m + n) hb (fun _ _ => rfl) (fun _ _ => rfl)
    (fun _ _ => rfl) (ha.exists_zipFloat hb hm hn ?_)
  intro s i hi t j hj hs ht
  rw [Binary64.add, hs, ht, ← add_mul]
  exact is_ofSum hsum _

theorem Is.exists_sub (ha : a.Is (m : ℚ)) (hb : b.Is (n : ℚ)) (hm : m.natAbs ≤ 2 ^ 53)
    (hn : n.natAbs ≤ 2 ^ 53) (hdiff : (m - n).natAbs ≤ 2 ^ 53) :
    ∃ c, a.sub b = .ok c ∧ c.Is ((m - n : Int) : ℚ) := by
  refine ha.exists_of_kinds (k := fun m n => m - n) hb (fun _ _ => rfl) (fun _ _ => rfl)
    (fun _ _ => rfl) (ha.exists_zipFloat hb hm hn ?_)
  intro s i hi t j hj hs ht
  rw [Binary64.sub, Binary64.neg, Binary64.add, Binary64.signedCount_not, hs, ht,
    ← sub_eq_add_neg, ← sub_mul]
  exact is_ofSum hdiff _

/-- The product of two counts of units is a count of the units of a unit. -/
theorem signedCount_mul (s t : Bool) (i j : Nat) :
    Binary64.signedCount (s != t) (i * j) =
      Binary64.signedCount s i * Binary64.signedCount t j := by
  cases s <;> cases t <;> simp [Binary64.signedCount]

theorem Is.exists_mul (ha : a.Is (m : ℚ)) (hb : b.Is (n : ℚ)) (hm : m.natAbs ≤ 2 ^ 53)
    (hn : n.natAbs ≤ 2 ^ 53) (hprod : (m * n).natAbs ≤ 2 ^ 53) :
    ∃ c, a.mul b = .ok c ∧ c.Is ((m * n : Int) : ℚ) := by
  refine ha.exists_of_kinds (k := fun m n => m * n) hb (fun _ _ => rfl) (fun _ _ => rfl)
    (fun _ _ => rfl) (ha.exists_zipFloat hb hm hn ?_)
  intro s i hi t j hj hs ht
  have hsize : ∀ (s : Bool) (i : Nat) (k : Int), Binary64.signedCount s i = k * unitsInOne →
      i = k.natAbs * unitsInOne := by
    intro s i k h
    rw [← natAbs_signedCount s i, h, Int.natAbs_mul, Int.natAbs_natCast]
  have hunits : i * j = (m * n).natAbs * unitsInOne * unitsInOne := by
    rw [hsize s i m hs, hsize t j n ht, Int.natAbs_mul]
    ring
  have hsign : Binary64.signedCount (s != t) ((m * n).natAbs * unitsInOne) =
      m * n * unitsInOne := by
    have hprod := signedCount_mul s t i j
    rw [hs, ht, hunits] at hprod
    refine mul_right_cancel₀ units_pos.ne' ?_
    have hscale := signedCount_mul (s != t) false ((m * n).natAbs * unitsInOne) unitsInOne
    rw [Bool.bne_false] at hscale
    calc Binary64.signedCount (s != t) ((m * n).natAbs * unitsInOne) * unitsInOne
        = Binary64.signedCount (s != t) ((m * n).natAbs * unitsInOne * unitsInOne) := hscale.symm
      _ = m * n * unitsInOne * unitsInOne := by rw [hprod]; ring
  rw [Binary64.mul, hunits, Binary64.ofRatio_mul_of_isCount (isCount_whole hprod) unitsInOne_pos,
    is_whole_iff, place?, hsign]

end Number

/-- A way to hold whole numbers, all of them or those of some sizes, in which what comes of them is
not rounded. -/
structure ExactArithmetic (Holds : Int → Number → Prop) (fits : Int → Prop) : Prop where
  is : ∀ {n a}, Holds n a → a.Is (n : ℚ)
  int : ∀ n, Holds n (.int n)
  add : ∀ {m n a b}, Holds m a → Holds n b → fits m → fits n → fits (m + n) →
    ∃ c, a.add b = .ok c ∧ Holds (m + n) c
  sub : ∀ {m n a b}, Holds m a → Holds n b → fits m → fits n → fits (m - n) →
    ∃ c, a.sub b = .ok c ∧ Holds (m - n) c
  mul : ∀ {m n a b}, Holds m a → Holds n b → fits m → fits n → fits (m * n) →
    ∃ c, a.mul b = .ok c ∧ Holds (m * n) c
  /-- Whole numbers between zero and one that fits do as well. -/
  between : ∀ {m n}, 0 ≤ m → m ≤ n → fits n → fits m

/-- Whole numbers of any size, with no binary64 value among them. -/
theorem exactArithmetic_int : ExactArithmetic (fun n a => a = .int n) fun _ => True where
  is h := h ▸ Number.is_int _
  int _ := rfl
  add ha hb _ _ _ := ⟨_, by rw [ha, hb]; rfl, rfl⟩
  sub ha hb _ _ _ := ⟨_, by rw [ha, hb]; rfl, rfl⟩
  mul ha hb _ _ _ := ⟨_, by rw [ha, hb]; rfl, rfl⟩
  between _ _ _ := trivial

/-- Whole numbers up to `2 ^ 53`, of either kind. -/
theorem exactArithmetic_whole :
    ExactArithmetic (fun n a => a.Is (n : ℚ)) fun n => n.natAbs ≤ 2 ^ 53 where
  is h := h
  int := Number.is_int
  add := Number.Is.exists_add
  sub := Number.Is.exists_sub
  mul := Number.Is.exists_mul
  between h hle hn := by omega

end Montage
