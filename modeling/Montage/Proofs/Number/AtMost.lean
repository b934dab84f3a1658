import Montage.Proofs.Number.Fits

/-!
Finite numbers up to a size.

A sum doubles the size at most, and quotients and remainders keep it, so what is made of small
numbers in a few steps is finite.
-/

namespace Montage

/-- A finite number that is not farther from zero than a whole size. -/
def Number.AtMost (size : Nat) (a : Number) : Prop :=
  ∃ n, a.place? = some (.point n) ∧ n.natAbs ≤ size * unitsInOne

instance (size : Nat) (a : Number) : Decidable (a.AtMost size) :=
  match h : a.place? with
  | some (.point n) =>
      decidable_of_iff (n.natAbs ≤ size * unitsInOne)
        ⟨fun hle => ⟨n, h, hle⟩, fun ⟨m, hm, hle⟩ => by
          obtain rfl : n = m := Place.point.inj (Option.some.inj (h.symm.trans hm))
          exact hle⟩
  | some .bottom => isFalse fun ⟨_, hm, _⟩ => nomatch h.symm.trans hm
  | some .top => isFalse fun ⟨_, hm, _⟩ => nomatch h.symm.trans hm
  | none => isFalse fun ⟨_, hm, _⟩ => nomatch h.symm.trans hm

theorem natAbs_signedCount (negative : Bool) (units : Nat) :
    (Binary64.signedCount negative units).natAbs = units := by
  cases negative <;> simp [Binary64.signedCount]

theorem Number.AtMost.isInfinite_eq {x : Binary64} {size : Nat}
    (h : (Number.float x).AtMost size) : x.isInfinite = false := by
  obtain ⟨n, hn, -⟩ := h
  rcases x with _ | ⟨_ | _⟩ | ⟨s, m, hm⟩
  · rfl
  · simp only [place?, Option.some.injEq, reduceCtorEq] at hn
  · simp only [place?, Option.some.injEq, reduceCtorEq] at hn
  · rfl

section AtMost

variable {a : Number} {size : Nat} (hcount : IsCount (size * unitsInOne))
include hcount

theorem Binary64.atMost_ofRatio (negative : Bool) {num den : Nat} (hden : 0 < den)
    (hle : num ≤ size * unitsInOne * den) :
    (Number.float (ofRatio negative num den)).AtMost size := by
  have hrounded := roundCount_le_of_isCount hcount hden hle
  have hlimit : roundCount num den < unitsLimit := hrounded.trans_lt hcount.2
  refine ⟨signedCount negative (roundCount num den), ?_, ?_⟩
  · simp only [ofRatio, hlimit, ↓reduceDIte]
    rfl
  · rwa [natAbs_signedCount]

/-- What is at most a count stays so as a binary64 value. -/
theorem Number.AtMost.exists_toBinary64 (h : a.AtMost size) :
    ∃ x, a.toBinary64 = .ok x ∧ (Number.float x).AtMost size := by
  obtain ⟨n, hn, hle⟩ := h
  cases a with
  | float x => exact ⟨x, rfl, n, hn, hle⟩
  | int m =>
      rw [place?_int, Option.some.injEq, Place.point.injEq] at hn
      have hsize : m.natAbs * unitsInOne ≤ size * unitsInOne * 1 :=
        calc m.natAbs * unitsInOne = n.natAbs := by
              rw [← hn, Int.natAbs_mul, Int.natAbs_natCast]
          _ ≤ size * unitsInOne := hle
          _ = size * unitsInOne * 1 := (Nat.mul_one _).symm
      have hvalue : (Number.float (Binary64.ofInt m)).AtMost size :=
        Binary64.atMost_ofRatio hcount _ Nat.one_pos hsize
      refine ⟨Binary64.ofInt m, ?_, hvalue⟩
      rw [toBinary64, hvalue.isInfinite_eq]
      exact if_neg Bool.false_ne_true

end AtMost

theorem isCount_power {k : Nat} (hk : k ≤ Number.greatestExponent) :
    IsCount (2 ^ k * unitsInOne) := by
  have hlimit : ∀ e, k + unitExponent < e → 2 ^ (k + unitExponent) < Nat.pow 2 e :=
    fun e => Nat.pow_lt_pow_right Nat.one_lt_two
  unfold unitsInOne
  rw [Nat.pow_eq, ← Nat.pow_add]
  refine ⟨?_, ?_⟩
  · rw [Nat.log2_two_pow]
    exact Nat.pow_dvd_pow 2 (Nat.sub_le _ _)
  · unfold unitsLimit
    refine hlimit (1024 + unitExponent) ?_
    simp only [Number.greatestExponent] at hk
    omega

namespace Binary64

variable {x y : Binary64} {k size : Nat}

theorem atMost_finite (s : Bool) {m : Nat} (hm : IsCount m) (h : m ≤ size * unitsInOne) :
    (Number.float (finite s m hm)).AtMost size :=
  ⟨_, rfl, by rwa [natAbs_signedCount]⟩

theorem exists_finite (h : (Number.float x).AtMost size) :
    ∃ s m hm, x = finite s m hm ∧ m ≤ size * unitsInOne := by
  obtain ⟨n, hn, hle⟩ := h
  rcases x with _ | ⟨_ | _⟩ | ⟨s, m, hm⟩ <;>
    simp only [Number.place?, Option.some.injEq, reduceCtorEq, Place.point.injEq] at hn
  rw [← hn, natAbs_signedCount] at hle
  exact ⟨s, m, hm, rfl, hle⟩

theorem atMost_add (hk : k < Number.greatestExponent) (hx : (Number.float x).AtMost (2 ^ k))
    (hy : (Number.float y).AtMost (2 ^ k)) :
    (Number.float (x.add y)).AtMost (2 ^ (k + 1)) := by
  obtain ⟨s, m, hm, rfl, hmle⟩ := exists_finite hx
  obtain ⟨t, n, hn, rfl, hnle⟩ := exists_finite hy
  rw [add, ofSum]
  split
  · exact atMost_finite _ _ (Nat.zero_le _)
  · refine atMost_ofRatio (isCount_power hk) _ Nat.one_pos ?_
    have hs := natAbs_signedCount s m
    have ht := natAbs_signedCount t n
    rw [Nat.mul_one, Nat.pow_succ, Nat.mul_right_comm]
    omega

theorem atMost_sub (hk : k < Number.greatestExponent) (hx : (Number.float x).AtMost (2 ^ k))
    (hy : (Number.float y).AtMost (2 ^ k)) :
    (Number.float (x.sub y)).AtMost (2 ^ (k + 1)) := by
  obtain ⟨t, n, hn, rfl, hnle⟩ := exists_finite hy
  exact atMost_add hk hx (atMost_finite (!t) hn hnle)

/-- A whole number from one on, as a value. -/
theorem ofInt_natCast {d : Nat} (hd : IsCount (d * unitsInOne)) :
    ofInt d = .finite false (d * unitsInOne) hd := by
  rw [ofInt, decide_eq_false (Int.natCast_nonneg d).not_gt, Int.natAbs_natCast,
    ofRatio_of_isCount]

section Divisor

variable {d : Nat} (hcount : IsCount (d * unitsInOne)) (hd : 0 < d)
include hcount hd

theorem atMost_div_ofInt (hk : k ≤ Number.greatestExponent)
    (hx : (Number.float x).AtMost (2 ^ k)) :
    (Number.float (x.div (ofInt d))).AtMost (2 ^ k) := by
  obtain ⟨s, m, hm, rfl, hle⟩ := exists_finite hx
  have hden : 0 < d * unitsInOne := Nat.mul_pos hd unitsInOne_pos
  rw [ofInt_natCast hcount, div, if_neg hden.ne']
  refine atMost_ofRatio (isCount_power hk) _ hden ?_
  exact Nat.mul_le_mul hle (Nat.le_mul_of_pos_left _ hd)

theorem atMost_remainder_ofInt (hk : k ≤ Number.greatestExponent)
    (hx : (Number.float x).AtMost (2 ^ k)) :
    (Number.float (x.remainder (ofInt d))).AtMost (2 ^ k) := by
  obtain ⟨s, m, hm, rfl, hle⟩ := exists_finite hx
  have hden : 0 < d * unitsInOne := Nat.mul_pos hd unitsInOne_pos
  rw [ofInt_natCast hcount, remainder, if_neg hden.ne']
  refine atMost_ofRatio (isCount_power hk) _ Nat.one_pos ?_
  rw [Nat.mul_one]
  exact (Nat.mod_le _ _).trans hle

end Divisor

theorem atMost_floor (hk : k < Number.greatestExponent)
    (hx : (Number.float x).AtMost (2 ^ k)) :
    (Number.float x.floor).AtMost (2 ^ (k + 1)) := by
  obtain ⟨s, m, hm, rfl, hle⟩ := exists_finite hx
  have hwhole : (splitCount m).1 ≤ 2 ^ k :=
    Nat.div_le_of_le_mul (by rwa [Nat.mul_comm] at hle)
  have hone : 1 ≤ 2 ^ k := Nat.one_le_two_pow
  have hvalue : ∀ (s : Bool) (n : Nat), n ≤ 2 ^ (k + 1) →
      (Number.float (ofRatio s (n * unitsInOne) 1)).AtMost (2 ^ (k + 1)) := by
    intro s n hn
    refine atMost_ofRatio (isCount_power hk) _ Nat.one_pos ?_
    rw [Nat.mul_one]
    exact Nat.mul_le_mul_right _ hn
  have hfloor : (finite s m hm).floor =
      if (splitCount m).2 = 0 then ofRatio s ((splitCount m).1 * unitsInOne) 1
      else if s then ofRatio s (((splitCount m).1 + 1) * unitsInOne) 1
      else ofRatio s ((splitCount m).1 * unitsInOne) 1 := rfl
  rw [hfloor]
  split
  · exact hvalue _ _ (by omega)
  · split
    · exact hvalue _ _ (by omega)
    · exact hvalue _ _ (by omega)

end Binary64

namespace Number

variable {a b : Number} {k size : Nat}

theorem AtMost.mono {more : Nat} (h : a.AtMost size) (hle : size ≤ more) : a.AtMost more := by
  obtain ⟨n, hn, hsize⟩ := h
  exact ⟨n, hn, hsize.trans (Nat.mul_le_mul_right _ hle)⟩

theorem AtMost.powMono {j : Nat} (h : a.AtMost (2 ^ j)) (hjk : j ≤ k) : a.AtMost (2 ^ k) :=
  h.mono (Nat.pow_le_pow_right Nat.two_pos hjk)

theorem atMost_zero : (0 : Number).AtMost size := ⟨0, place?_zero, Nat.zero_le _⟩

theorem atMost_int {n : Int} : (Number.int n).AtMost size ↔ n.natAbs ≤ size := by
  have hunits : (n * unitsInOne).natAbs = n.natAbs * unitsInOne := by
    rw [Int.natAbs_mul, Int.natAbs_natCast]
  constructor
  · rintro ⟨m, hm, hle⟩
    rw [place?_int, Option.some.injEq, Place.point.injEq] at hm
    rw [← hm, hunits] at hle
    exact Nat.le_of_mul_le_mul_right hle unitsInOne_pos
  · intro hle
    refine ⟨_, place?_int n, ?_⟩
    rw [hunits]
    exact Nat.mul_le_mul_right _ hle

theorem AtMost.bounded (h : a.AtMost (2 ^ k)) : a.Bounded k := by
  cases a with
  | int n => exact atMost_int.1 h
  | float x => trivial

theorem AtMost.gives_add (hk : k < greatestExponent) (ha : a.AtMost (2 ^ k))
    (hb : b.AtMost (2 ^ k)) : Gives (AtMost (2 ^ (k + 1))) (a.add b) := by
  have hfloat : Gives (AtMost (2 ^ (k + 1))) (zipFloat Binary64.add a b) := by
    obtain ⟨x, hx, hxsize⟩ := ha.exists_toBinary64 (isCount_power hk.le)
    obtain ⟨y, hy, hysize⟩ := hb.exists_toBinary64 (isCount_power hk.le)
    exact .bind (P := (· = x)) ⟨_, hx, rfl⟩ fun _ hx' =>
      .bind (P := (· = y)) ⟨_, hy, rfl⟩ fun _ hy' =>
        .ok (hx' ▸ hy' ▸ Binary64.atMost_add hk hxsize hysize)
  cases a with
  | float x => exact hfloat
  | int m =>
      cases b with
      | float y => exact hfloat
      | int n =>
          have hm : m.natAbs ≤ 2 ^ k := atMost_int.1 ha
          have hn : n.natAbs ≤ 2 ^ k := atMost_int.1 hb
          exact .ok (atMost_int.2 (by omega))

theorem AtMost.exists_truncate (h : a.AtMost size) :
    ∃ n, a.truncate = .ok n ∧ n.natAbs ≤ size := by
  cases a with
  | int n => exact ⟨n, rfl, atMost_int.1 h⟩
  | float x =>
      obtain ⟨s, m, hm, rfl, hle⟩ := Binary64.exists_finite h
      refine ⟨_, rfl, ?_⟩
      rw [natAbs_signedCount]
      exact Nat.div_le_of_le_mul (by rwa [Nat.mul_comm])

end Number

namespace Binary64

variable {x : Binary64} {d k : Nat}

/-- What the remainder leaves of a finite value is finite, for it lies on the same side of zero. -/
theorem isFinite_sub_remainder (hcount : IsCount (d * unitsInOne)) (hd : 0 < d)
    (hx : x.isFinite = true) : (x.sub (x.remainder (ofInt d))).isFinite = true := by
  rcases x with _ | _ | ⟨s, m, hm⟩
  · exact absurd hx Bool.false_ne_true
  · exact absurd hx Bool.false_ne_true
  have hden : 0 < d * unitsInOne := Nat.mul_pos hd unitsInOne_pos
  have hrest : roundCount (m % (d * unitsInOne)) 1 ≤ d * unitsInOne :=
    roundCount_le_of_isCount hcount Nat.one_pos (by
      rw [Nat.mul_one]
      exact (Nat.mod_lt m hden).le)
  have hr : (finite s m hm).remainder (ofInt d) =
      .finite s (roundCount (m % (d * unitsInOne)) 1)
        ⟨roundCount_dvd _ _, hrest.trans_lt hcount.2⟩ := by
    rw [ofInt_natCast hcount, remainder, if_neg hden.ne', ofRatio,
      dif_pos (hrest.trans_lt hcount.2)]
  rw [hr]
  change (ofSum (signedCount s m + signedCount (!s) (roundCount (m % (d * unitsInOne)) 1))
    _).isFinite = true
  rw [ofSum, signedCount_not]
  split
  · rfl
  · -- the difference is not larger than the greater of the two counts
    have hmax : IsCount (max m (d * unitsInOne)) := by
      rcases max_choice m (d * unitsInOne) with h | h <;> rw [h]
      · exact hm
      · exact hcount
    have hsum : (signedCount s m + -signedCount s (roundCount (m % (d * unitsInOne)) 1)).natAbs ≤
        max m (d * unitsInOne) * 1 := by
      cases s <;> simp only [signedCount, Bool.false_eq_true, ↓reduceIte] <;> omega
    rw [ofRatio, dif_pos ((roundCount_le_of_isCount hmax Nat.one_pos hsum).trans_lt hmax.2)]
    rfl

/-- A finite value divided by a whole number that is not small. -/
theorem atMost_div_of_isFinite (hcount : IsCount (d * unitsInOne)) (hd : 2 ^ 9 ≤ d)
    (hx : x.isFinite = true) : (Number.float (x.div (ofInt d))).AtMost (2 ^ 1015) := by
  rcases x with _ | _ | ⟨s, m, hm⟩
  · exact absurd hx Bool.false_ne_true
  · exact absurd hx Bool.false_ne_true
  have hden : 0 < d * unitsInOne := Nat.mul_pos (by omega) unitsInOne_pos
  have hlimit : unitsLimit = 2 ^ 1015 * unitsInOne * 2 ^ 9 := by decide +kernel
  rw [ofInt_natCast hcount, div, if_neg hden.ne']
  refine atMost_ofRatio (isCount_power (by decide)) _ hden ?_
  calc m * unitsInOne ≤ 2 ^ 1015 * unitsInOne * 2 ^ 9 * unitsInOne :=
        Nat.mul_le_mul_right _ (hlimit ▸ hm.2.le)
    _ ≤ 2 ^ 1015 * unitsInOne * d * unitsInOne :=
        Nat.mul_le_mul_right _ (Nat.mul_le_mul_left _ hd)
    _ = 2 ^ 1015 * unitsInOne * (d * unitsInOne) := Nat.mul_assoc _ _ _

/-- The remainder by a whole number is not larger than that number. -/
theorem atMost_remainder_of_isFinite (hcount : IsCount (d * unitsInOne)) (hd : 0 < d)
    (hx : x.isFinite = true) : (Number.float (x.remainder (ofInt d))).AtMost d := by
  rcases x with _ | _ | ⟨s, m, hm⟩
  · exact absurd hx Bool.false_ne_true
  · exact absurd hx Bool.false_ne_true
  have hden : 0 < d * unitsInOne := Nat.mul_pos hd unitsInOne_pos
  rw [ofInt_natCast hcount, remainder, if_neg hden.ne']
  refine atMost_ofRatio hcount _ Nat.one_pos ?_
  rw [Nat.mul_one]
  exact (Nat.mod_lt m hden).le

end Binary64

namespace Number

variable {x : Binary64} {d k : Nat}

/-- A quotient that is rounded down stays finite. -/
theorem atMost_quotient (hk : k + 3 ≤ greatestExponent)
    (hq : (Number.float ((x.sub (x.remainder (Binary64.ofInt d))).div
      (Binary64.ofInt d))).AtMost (2 ^ k)) :
    ((Number.float x).floorDivMod d).1.AtMost (2 ^ (k + 3)) := by
  have hone : (Number.float (Binary64.ofInt 1)).AtMost 1 := by
    rw [show (1 : Int) = (1 : Nat) from rfl, Binary64.ofInt_natCast (by decide +kernel)]
    exact Binary64.atMost_finite _ _ le_rfl
  have hlowered : ∀ {q : Binary64} (c : Bool), (Number.float q).AtMost (2 ^ k) →
      (Number.float (if c then q.sub (Binary64.ofInt 1) else q)).AtMost (2 ^ (k + 1)) := by
    intro q c hq
    split
    · exact Binary64.atMost_sub (by omega) hq (hone.mono Nat.one_le_two_pow)
    · exact hq.powMono (Nat.le_succ _)
  have hrounded : ∀ {q : Binary64} (c d : Bool), (Number.float q).AtMost (2 ^ (k + 1)) →
      (Number.float (if c then q else if d then q.floor.add (Binary64.ofInt 1)
        else q.floor)).AtMost (2 ^ (k + 3)) := by
    intro q c d hq
    have hfloor := Binary64.atMost_floor (by omega) hq
    split
    · exact hq.powMono (by omega)
    · split
      · exact Binary64.atMost_add (by omega) hfloor (hone.mono Nat.one_le_two_pow)
      · exact hfloor.powMono (by omega)
  exact hrounded _ _ (hlowered _ hq)

theorem atMost_rest (hk : k < greatestExponent)
    (hr : (Number.float (x.remainder (Binary64.ofInt d))).AtMost (2 ^ k))
    (hd : (Number.float (Binary64.ofInt d)).AtMost (2 ^ k)) :
    ((Number.float x).floorDivMod d).2.AtMost (2 ^ (k + 1)) := by
  simp only [Number.floorDivMod]
  split
  · exact Binary64.atMost_finite _ _ (Nat.zero_le _)
  · split
    · exact Binary64.atMost_add hk hr hd
    · exact hr.powMono (Nat.le_succ k)

end Number

end Montage
