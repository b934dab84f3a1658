import Montage.Proofs.Number.Finite

/-!
Whole numbers, and the same numbers by a whole number later.

Binary64 holds whole numbers at a spacing that grows with their size.  What it does not hold among
small numbers it does not hold later on either: a number is held if it is held delayed, and a
greater one before and after the delay.
-/

namespace Montage

namespace IsCount

variable {a e k : Nat}

/-- A count is a multiple of the spacing at any smaller one. -/
theorem spacing_dvd (h : IsCount e) (hle : a ≤ e) : 2 ^ (a.log2 - 52) ∣ e :=
  (Nat.pow_dvd_pow 2 (Nat.sub_le_sub_right (log2_le_log2 hle) 52)).trans h.1

theorem of_add (hae : a ≤ e) (he : IsCount e) (hek : IsCount (e + k)) (hak : IsCount (a + k)) :
    IsCount a := by
  have hk : 2 ^ (a.log2 - 52) ∣ k :=
    (Nat.dvd_add_right (he.spacing_dvd hae)).1 (hek.spacing_dvd (hae.trans (Nat.le_add_right e k)))
  have ha : 2 ^ (a.log2 - 52) ∣ a :=
    (Nat.dvd_add_left hk).1 (hak.spacing_dvd (Nat.le_add_right a k))
  exact ⟨ha, hae.trans_lt he.2⟩

end IsCount

namespace Number

variable {k m n : Int}

theorem isExact_int_iff : (Number.int n).IsExact ↔ IsCount (n.natAbs * unitsInOne) := by
  constructor
  · rintro ⟨x, -, hplace⟩
    rw [place?_int] at hplace
    rcases x with _ | ⟨_ | _⟩ | ⟨s, c, hc⟩
    · simp only [place?, reduceCtorEq] at hplace
    · simp only [place?, Option.some.injEq, reduceCtorEq] at hplace
    · simp only [place?, Option.some.injEq, reduceCtorEq] at hplace
    · have hcount : Binary64.signedCount s c = n * unitsInOne :=
        Place.point.inj (Option.some.inj hplace)
      have hsize := natAbs_signedCount s c
      rw [hcount, Int.natAbs_mul, Int.natAbs_natCast] at hsize
      rwa [hsize]
  · exact isExact_int

theorem isExact_of_le (h : n.natAbs ≤ 2 ^ 53) : (Number.int n).IsExact :=
  isExact_int (isCount_whole h)

/-- A whole number is held that is held later, if a greater one is held now and then. -/
theorem isExact_of_add (hm : 0 ≤ m) (hmn : m ≤ n) (hk : 0 ≤ k) (hn : (Number.int n).IsExact)
    (hnk : (Number.int (n + k)).IsExact) (hmk : (Number.int (m + k)).IsExact) :
    (Number.int m).IsExact := by
  have hle : m.natAbs ≤ n.natAbs := by omega
  rw [isExact_int_iff] at *
  rw [Int.natAbs_add_of_nonneg (hm.trans hmn) hk, Nat.add_mul] at hnk
  rw [Int.natAbs_add_of_nonneg hm hk, Nat.add_mul] at hmk
  exact IsCount.of_add (Nat.mul_le_mul_right _ hle) hn hnk hmk

section Binary64

theorem ofInt_of_isExact (h : (Number.int n).IsExact) :
    Binary64.ofInt n =
      .finite (decide (n < 0)) (n.natAbs * unitsInOne) (isExact_int_iff.1 h) := by
  rw [Binary64.ofInt, Binary64.ofRatio_of_isCount]

theorem toBinary64_int (h : (Number.int n).IsExact) :
    (Number.int n).toBinary64 = .ok (Binary64.ofInt n) := by
  have hfinite : (Binary64.ofInt n).isInfinite = false := by rw [ofInt_of_isExact h]; rfl
  simp only [toBinary64, hfinite, Bool.false_eq_true, ↓reduceIte]

theorem place?_ofInt (h : (Number.int n).IsExact) :
    (Number.float (.ofInt n)).place? = some (.point (n * unitsInOne)) := by
  obtain ⟨x, hx, hplace⟩ := h
  obtain rfl : Binary64.ofInt n = x :=
    Except.ok.inj ((toBinary64_int ⟨x, hx, hplace⟩).symm.trans hx)
  rw [hplace, place?_int]

theorem is_ofInt (h : (Number.int n).IsExact) : (Number.float (.ofInt n)).Is n :=
  is_whole_iff.2 (place?_ofInt h)

theorem signedCount_of_isExact (h : (Number.int n).IsExact) :
    Binary64.signedCount (decide (n < 0)) (n.natAbs * unitsInOne) = n * unitsInOne := by
  have hplace := place?_ofInt h
  rw [ofInt_of_isExact h] at hplace
  exact Place.point.inj (Option.some.inj hplace)

/-- The difference of whole numbers is rounded once, and zero is not negative. -/
theorem sub_ofInt (hm : (Number.int m).IsExact) (hn : (Number.int n).IsExact) :
    (Binary64.ofInt m).sub (.ofInt n) = Binary64.ofSum ((m - n) * unitsInOne) false := by
  rw [ofInt_of_isExact hm, ofInt_of_isExact hn, Binary64.sub, Binary64.neg, Binary64.add,
    Binary64.signedCount_not, signedCount_of_isExact hm, signedCount_of_isExact hn,
    ← sub_eq_add_neg, ← sub_mul]
  by_cases heq : m = n
  · rw [heq, Bool.and_not_self]
  · have hne : (m - n) * unitsInOne ≠ 0 := mul_ne_zero (sub_ne_zero.2 heq) units_pos.ne'
    rw [Binary64.ofSum, Binary64.ofSum, if_neg hne, if_neg hne]

/-- What is not below a whole number that binary64 holds stays so when it is rounded. -/
theorem le_ofInt (hm : 0 ≤ m) (hmn : m ≤ n) (h : (Number.int m).IsExact) :
    (Number.int m).le (.float (.ofInt n)) = true := by
  have hle : m.natAbs * unitsInOne ≤ n.natAbs * unitsInOne :=
    Nat.mul_le_mul_right _ (by omega)
  obtain ⟨p, hp, hmp⟩ := Binary64.le_place_ofRatio (isExact_int_iff.1 h) hle
  rw [Nat.cast_mul, Int.natAbs_of_nonneg hm] at hmp
  rw [Binary64.ofInt, decide_eq_false (not_lt.2 (hm.trans hmn)), Number.le_iff (place?_int m) hp]
  exact hmp

/-- Below a whole number that binary64 holds, rounding does not leave the range. -/
theorem fits_of_le (hm : 0 ≤ m) (hmn : m ≤ n) (h : (Number.int n).IsExact) :
    (Number.int m).Fits := by
  have hle : m.natAbs * unitsInOne ≤ n.natAbs * unitsInOne * 1 := by
    rw [Nat.mul_one]
    exact Nat.mul_le_mul_right _ (by omega)
  have hlt : roundCount (m.natAbs * unitsInOne) 1 < unitsLimit :=
    (roundCount_le_of_isCount (isExact_int_iff.1 h) Nat.one_pos hle).trans_lt
      (isExact_int_iff.1 h).2
  refine ⟨.ofInt m, ?_⟩
  rw [toBinary64, Binary64.ofInt, Binary64.ofRatio, dif_pos hlt]
  rfl

theorem Fits.exists_ofInt (h : (Number.int m).Fits) (hm : 0 ≤ m) :
    (Number.int m).toBinary64 = .ok (.ofInt m) ∧ ∃ c hc, Binary64.ofInt m = .finite false c hc := by
  obtain ⟨x, hx⟩ := h
  rw [toBinary64] at hx ⊢
  split at hx
  · simp only [reduceCtorEq] at hx
  · next hfinite =>
      refine ⟨if_neg hfinite, ?_⟩
      rw [Binary64.ofInt, decide_eq_false (not_lt.2 hm), Binary64.ofRatio] at hfinite ⊢
      split at hfinite
      · next hlt =>
          rw [dif_pos hlt]
          exact ⟨_, _, rfl⟩
      · exact absurd rfl hfinite

end Binary64

/-- The number, so much later. -/
def delayed (k : Int) : Number → Number
  | .int n => .int (n + k)
  | .float x => .float (x.add (.ofInt k))

/-- Binary64 holds a whole number as it is, and so much later. -/
structure StaysExact (k n : Int) : Prop where
  now : (Number.int n).IsExact
  later : (Number.int (n + k)).IsExact

/-- Two whole numbers of one kind that binary64 holds, the second so much later than the first. -/
inductive DelayedBy (k : Int) : Number → Number → Prop
  | int {n : Int} (h : StaysExact k n) : DelayedBy k (.int n) (.int (n + k))
  | float {n : Int} (h : StaysExact k n) :
      DelayedBy k (.float (.ofInt n)) (.float (.ofInt (n + k)))

namespace DelayedBy

variable {a a' b b' : Number}

theorem exists_is (h : DelayedBy k a a') : ∃ n : Int, a.Is n ∧ a'.Is ((n + k : Int) : ℚ) := by
  cases h with
  | int => exact ⟨_, is_int _, is_int _⟩
  | float h => exact ⟨_, is_ofInt h.now, is_ofInt h.later⟩

theorem lt_eq (ha : DelayedBy k a a') (hb : DelayedBy k b b') : a'.lt b' = a.lt b := by
  obtain ⟨m, hm, hm'⟩ := ha.exists_is
  obtain ⟨n, hn, hn'⟩ := hb.exists_is
  rw [Bool.eq_iff_iff, Number.lt_iff_of_is hm hn, Number.lt_iff_of_is hm' hn',
    add_lt_add_iff_right]

theorem max (ha : DelayedBy k a a') (hb : DelayedBy k b b') :
    DelayedBy k (a.max b) (a'.max b') := by
  rw [Number.max, Number.max, ha.lt_eq hb]
  split
  · exact hb
  · exact ha

theorem min (ha : DelayedBy k a a') (hb : DelayedBy k b b') :
    DelayedBy k (a.min b) (a'.min b') := by
  rw [Number.min, Number.min, hb.lt_eq ha]
  split
  · exact hb
  · exact ha

/-- The way from one number to another does not depend on when they are. -/
theorem sub_eq (ha : DelayedBy k a a') (hb : DelayedBy k b b') : a'.sub b' = a.sub b := by
  have hshift : ∀ m n : Int, m + k - (n + k) = m - n := fun m n => add_sub_add_right_eq_sub m n k
  have hzip : ∀ {m n : Int} {x y : Number}, (Number.int m).IsExact → (Number.int n).IsExact →
      x.toBinary64 = .ok (.ofInt m) → y.toBinary64 = .ok (.ofInt n) →
      zipFloat Binary64.sub x y = .ok (.float (.ofSum ((m - n) * unitsInOne) false)) := by
    intro m n x y hm hn hx hy
    rw [zipFloat_eq hx hy, sub_ofInt hm hn]
  have hfloat : ∀ x, (Number.float x).toBinary64 = .ok x := fun _ => rfl
  cases ha with
  | int hm =>
      cases hb with
      | int => exact congrArg (fun d => Except.ok (Number.int d)) (hshift _ _)
      | float hn =>
          change zipFloat Binary64.sub _ _ = zipFloat Binary64.sub _ _
          rw [hzip hm.now hn.now (toBinary64_int hm.now) (hfloat _),
            hzip hm.later hn.later (toBinary64_int hm.later) (hfloat _), hshift]
  | float hm =>
      rw [float_sub, float_sub]
      cases hb with
      | int hn =>
          rw [hzip hm.now hn.now (hfloat _) (toBinary64_int hn.now),
            hzip hm.later hn.later (hfloat _) (toBinary64_int hn.later), hshift]
      | float hn =>
          rw [hzip hm.now hn.now (hfloat _) (hfloat _),
            hzip hm.later hn.later (hfloat _) (hfloat _), hshift]

end DelayedBy

end Number

end Montage
