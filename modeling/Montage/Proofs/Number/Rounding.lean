import Montage.Proofs.Fault
import Montage.Proofs.Number.Order

/-!
Rounded arithmetic.  Rounding keeps every count that it can hold and never falls below one that
the exact result reaches; sums and differences of numbers inherit this.
-/

namespace Montage

theorem roundHalfEven_of_dvd {num den : Nat} (hden : 0 < den) (h : den ∣ num) :
    roundHalfEven num den = num / den := by
  have hr : num % den = 0 := Nat.mod_eq_zero_of_dvd h
  simp [roundHalfEven, hr, hden]

theorem div_le_roundHalfEven (num den : Nat) :
    num / den ≤ roundHalfEven num den := by
  simp only [roundHalfEven]
  split
  · exact le_rfl
  · split <;> omega

theorem roundHalfEven_le {num den c : Nat} (hden : 0 < den) (h : num ≤ c * den) :
    roundHalfEven num den ≤ c := by
  have hquotient : num / den ≤ c := Nat.div_le_of_le_mul (by rwa [Nat.mul_comm])
  rcases hquotient.lt_or_eq with hlt | heq
  · exact (roundHalfEven_le_succ num den).trans hlt
  · -- the bound is reached, so nothing is left over
    have hnum : num = c * den :=
      le_antisymm h (heq ▸ Nat.div_mul_le_self num den)
    rw [roundHalfEven_of_dvd hden ⟨c, by rw [hnum, Nat.mul_comm]⟩]
    exact hquotient

theorem roundCount_one (num : Nat) :
    roundCount num 1 =
      roundHalfEven num (2 ^ (num.log2 - 52)) * 2 ^ (num.log2 - 52) := by
  simp [roundCount, droppedBits, Nat.pow_eq]

/-- Rounding keeps a count that 53 bits hold. -/
theorem roundCount_mul_of_isCount {k den : Nat} (h : IsCount k) (hden : 0 < den) :
    roundCount (k * den) den = k := by
  have hdvd : 2 ^ (k.log2 - 52) ∣ k := by simpa [Nat.pow_eq] using h.1
  have hbits : droppedBits (k * den) den = k.log2 - 52 := by
    rw [droppedBits, Nat.mul_div_cancel k hden]
  rw [roundCount, hbits, Nat.pow_eq, Nat.mul_comm den,
    roundHalfEven_of_dvd (Nat.mul_pos (Nat.two_pow_pos _) hden) (Nat.mul_dvd_mul_right hdvd den),
    Nat.mul_div_mul_right k _ hden, Nat.div_mul_cancel hdvd]

theorem log2_le_log2 {k num : Nat} (hle : k ≤ num) : k.log2 ≤ num.log2 := by
  rcases Nat.eq_zero_or_pos k with rfl | hk
  · simp
  · rw [Nat.le_log2 (by omega)]
    exact (Nat.log2_self_le hk.ne').trans hle

/-- What is above a count stays so when it is rounded. -/
theorem le_roundCount {k num : Nat} (h : IsCount k) (hle : k ≤ num) :
    k ≤ roundCount num 1 := by
  rw [roundCount_one]
  have hlog : k.log2 ≤ num.log2 := log2_le_log2 hle
  have hfloor := div_le_roundHalfEven num (2 ^ (num.log2 - 52))
  rcases Nat.lt_or_ge 52 num.log2 with hbig | hsmall
  · rcases Nat.lt_or_ge k.log2 num.log2 with hlt | hge
    · -- the rounded value is at least the leading power of two
      have hlead : 2 ^ 52 ≤ num / 2 ^ (num.log2 - 52) := by
        rw [Nat.le_div_iff_mul_le (Nat.two_pow_pos _), ← pow_add,
          Nat.add_sub_cancel' hbig.le]
        exact Nat.log2_self_le (by rintro rfl; simp at hbig)
      calc k ≤ 2 ^ (k.log2 + 1) := Nat.lt_log2_self.le
        _ ≤ 2 ^ (52 + (num.log2 - 52)) :=
            Nat.pow_le_pow_right (by decide) (by omega)
        _ = 2 ^ 52 * 2 ^ (num.log2 - 52) := pow_add 2 52 _
        _ ≤ _ := Nat.mul_le_mul_right _ (hlead.trans hfloor)
    · -- the same bits are dropped from both, and the count has none of them
      have heq : k.log2 = num.log2 := le_antisymm hlog hge
      have hdvd : 2 ^ (num.log2 - 52) ∣ k := by
        simpa [Nat.pow_eq, heq] using h.1
      calc k = k / 2 ^ (num.log2 - 52) * 2 ^ (num.log2 - 52) :=
            (Nat.div_mul_cancel hdvd).symm
        _ ≤ _ := Nat.mul_le_mul_right _
            ((Nat.div_le_div_right hle).trans hfloor)
  · have hzero : num.log2 - 52 = 0 := by omega
    simp only [hzero, pow_zero, Nat.div_one, Nat.mul_one] at hfloor ⊢
    exact hle.trans hfloor

/-- What is not above a count stays so when it is rounded. -/
theorem roundCount_le_of_isCount {k num den : Nat} (h : IsCount k) (hden : 0 < den)
    (hle : num ≤ k * den) : roundCount num den ≤ k := by
  have hquotient : num / den ≤ k := Nat.div_le_of_le_mul (by rwa [Nat.mul_comm])
  rw [roundCount, Nat.pow_eq]
  generalize hd : droppedBits num den = d
  have hdvd : 2 ^ d ∣ k := by
    refine (Nat.pow_dvd_pow 2 ?_).trans h.1
    rw [← hd, droppedBits]
    exact Nat.sub_le_sub_right (log2_le_log2 hquotient) 52
  obtain ⟨c, rfl⟩ := hdvd
  have hrounded : roundHalfEven num (den * 2 ^ d) ≤ c := by
    refine roundHalfEven_le (Nat.mul_pos hden (Nat.two_pow_pos d)) ?_
    calc num ≤ 2 ^ d * c * den := hle
      _ = c * (den * 2 ^ d) := by
          rw [Nat.mul_comm (2 ^ d) c, Nat.mul_assoc, Nat.mul_comm (2 ^ d) den]
  calc roundHalfEven num (den * 2 ^ d) * 2 ^ d
      ≤ c * 2 ^ d := Nat.mul_le_mul_right _ hrounded
    _ = 2 ^ d * c := Nat.mul_comm _ _

theorem isCount_one : IsCount 1 := by decide +kernel

namespace Binary64

/-- The place of a value that is not below a count of units. -/
theorem le_place_ofRatio {k num : Nat} (h : IsCount k) (hle : k ≤ num) :
    ∃ p, (Number.float (ofRatio false num 1)).place? = some p ∧
      Place.point k ≤ p := by
  unfold ofRatio
  split
  · refine ⟨_, rfl, ?_⟩
    rw [Place.point_le_point]
    simpa [signedCount] using le_roundCount h hle
  · exact ⟨.top, rfl, Place.le_top _⟩

theorem ofRatio_mul_of_isCount {k den : Nat} (h : IsCount k) (hden : 0 < den)
    (negative : Bool) : ofRatio negative (k * den) den = .finite negative k h := by
  simp only [ofRatio, roundCount_mul_of_isCount h hden, h.2, ↓reduceDIte]

theorem ofRatio_of_isCount {k : Nat} (h : IsCount k) (negative : Bool) :
    ofRatio negative k 1 = .finite negative k h := by
  simpa only [Nat.mul_one] using ofRatio_mul_of_isCount h Nat.one_pos negative

theorem abs_ofSum {total : Int} (h : IsCount total.natAbs) (zeroSign : Bool) :
    (ofSum total zeroSign).abs = .finite false total.natAbs h := by
  rw [ofSum]
  split
  · next hzero =>
      subst hzero
      rfl
  · rw [ofRatio_of_isCount h]
    rfl

theorem signedCount_not (negative : Bool) (units : Nat) :
    signedCount (!negative) units = -signedCount negative units := by
  cases negative <;> simp [signedCount]

/-- A sum of two values that are not negative is not below the first. -/
theorem le_place_add {x y : Binary64} {p q : Place}
    (hx : (Number.float x).place? = some p)
    (hy : (Number.float y).place? = some q)
    (hp : Place.point 0 ≤ p) (hq : Place.point 0 ≤ q) :
    ∃ r, (Number.float (x.add y)).place? = some r ∧ p ≤ r := by
  rcases x with _ | ⟨_ | _⟩ | ⟨s, m, hm⟩ <;>
    rcases y with _ | ⟨_ | _⟩ | ⟨t, n, hn⟩ <;>
    simp only [Number.place?, Option.some.injEq, reduceCtorEq] at hx hy <;>
    subst hx hy
  all_goals try exact absurd hp (Place.not_point_le_bottom 0)
  all_goals try exact absurd hq (Place.not_point_le_bottom 0)
  · exact ⟨.top, rfl, le_rfl⟩
  · exact ⟨.top, rfl, le_rfl⟩
  · exact ⟨.top, rfl, Place.le_top _⟩
  · rw [Place.point_le_point] at hp hq
    have hcount : IsCount (signedCount s m).natAbs := by
      rcases s with _ | _
      · simpa [signedCount] using hm
      · have hzero : m = 0 := by
          simp only [signedCount, ↓reduceIte] at hp
          omega
        simpa [signedCount, hzero] using IsCount.zero
    have hnat : ((signedCount s m).natAbs : Int) = signedCount s m :=
      Int.natAbs_of_nonneg hp
    simp only [add, ofSum]
    split
    · refine ⟨.point 0, by cases (s && t) <;> simp [Number.place?, signedCount], ?_⟩
      rw [Place.point_le_point]
      omega
    · rw [decide_eq_false (by omega)]
      have hsum : (signedCount s m).natAbs ≤
          (signedCount s m + signedCount t n).natAbs := by omega
      obtain ⟨r, hr, hle⟩ := le_place_ofRatio hcount hsum
      exact ⟨r, hr, by rwa [hnat] at hle⟩

protected theorem add_comm (x y : Binary64) : x.add y = y.add x := by
  rcases x with _ | s | ⟨s, m, hm⟩ <;> rcases y with _ | t | ⟨t, n, hn⟩
  all_goals try rfl
  · cases s <;> cases t <;> rfl
  · simp only [add]
    rw [Int.add_comm, Bool.and_comm]

/-- A difference is positive when the first value lies above the second. -/
theorem place_sub_pos {x y : Binary64} {p q : Place}
    (hx : (Number.float x).place? = some p)
    (hy : (Number.float y).place? = some q) (hlt : q < p) :
    ∃ r, (Number.float (x.sub y)).place? = some r ∧ Place.point 0 < r := by
  rcases x with _ | ⟨_ | _⟩ | ⟨s, m, hm⟩ <;>
    rcases y with _ | ⟨_ | _⟩ | ⟨t, n, hn⟩ <;>
    simp only [Number.place?, Option.some.injEq, reduceCtorEq] at hx hy <;>
    subst hx hy
  all_goals try exact absurd hlt (not_lt.2 (Place.bottom_le _))
  all_goals try exact absurd hlt (not_lt.2 (Place.le_top _))
  all_goals try exact ⟨.top, rfl, rfl⟩
  rw [Place.point_lt_point] at hlt
  simp only [sub, neg, add, ofSum, signedCount_not]
  rw [if_neg (by omega), decide_eq_false (by omega)]
  have hpos : 0 < (signedCount s m + -signedCount t n).natAbs := by omega
  obtain ⟨r, hr, hle⟩ := le_place_ofRatio isCount_one hpos
  exact ⟨r, hr, lt_of_lt_of_le (by simp) hle⟩

/-- A finite value is no distance away from itself. -/
theorem abs_sub_self {x : Binary64} {n : Int}
    (hx : (Number.float x).place? = some (.point n)) : (x.sub x).abs = zero := by
  rcases x with _ | ⟨_ | _⟩ | ⟨s, m, hm⟩
  · simp only [Number.place?, reduceCtorEq] at hx
  · simp only [Number.place?, Option.some.injEq, reduceCtorEq] at hx
  · simp only [Number.place?, Option.some.injEq, reduceCtorEq] at hx
  · simp only [sub, neg, add, ofSum, signedCount_not, add_neg_cancel, ↓reduceIte, abs, zero]

end Binary64

namespace Number

variable {a b c : Number}

/-- The number is a binary64 value already: made into one, it stays where it
is. -/
def IsExact (a : Number) : Prop :=
  ∃ x, a.toBinary64 = .ok x ∧ (Number.float x).place? = a.place?

theorem isExact_float (x : Binary64) : (Number.float x).IsExact :=
  ⟨x, rfl, rfl⟩

/-- A whole number whose count of units 53 bits hold is exact. -/
theorem isExact_int {n : Int} (h : IsCount (n.natAbs * unitsInOne)) :
    (Number.int n).IsExact := by
  have hof : Binary64.ofInt n = .finite (decide (n < 0)) _ h := by
    rw [Binary64.ofInt, Binary64.ofRatio_of_isCount h]
  have hfinite : (Binary64.ofInt n).isInfinite = false := by rw [hof]; rfl
  refine ⟨Binary64.ofInt n, ?_, ?_⟩
  · simp only [toBinary64, hfinite, Bool.false_eq_true, ↓reduceIte]
  rw [hof, place?_int, place?, Option.some.injEq, Place.point.injEq]
  rcases lt_or_ge n 0 with hneg | hpos
  · rw [decide_eq_true hneg, Binary64.signedCount, if_pos rfl, Nat.cast_mul,
      Int.ofNat_natAbs_of_nonpos hneg.le, neg_mul, neg_neg]
  · rw [decide_eq_false (not_lt.2 hpos), Binary64.signedCount,
      if_neg Bool.false_ne_true, Nat.cast_mul, Int.natAbs_of_nonneg hpos]

theorem exists_place_toBinary64 {x : Binary64} (ha : Number.le 0 a = true)
    (h : a.toBinary64 = .ok x) :
    ∃ p, (Number.float x).place? = some p ∧ Place.point 0 ≤ p := by
  cases a with
  | float y =>
      obtain rfl : y = x := Except.ok.inj h
      obtain ⟨p, q, hp, hq, hle⟩ := exists_places_of_le ha
      obtain rfl : Place.point 0 = p := Option.some.inj (place?_zero.symm.trans hp)
      exact ⟨q, hq, hle⟩
  | int n =>
      have hn : 0 ≤ n := zero_le_int.1 ha
      simp only [toBinary64] at h
      split at h
      · simp only [reduceCtorEq] at h
      · obtain rfl : Binary64.ofInt n = x := Except.ok.inj h
        rw [Binary64.ofInt, decide_eq_false (not_lt.2 hn)]
        obtain ⟨p, hp, hle⟩ := Binary64.le_place_ofRatio IsCount.zero
          (Nat.zero_le (n.natAbs * unitsInOne))
        exact ⟨p, hp, by simpa using hle⟩

/-- Opens a sum, difference or product with a binary64 value on a side. -/
theorem exists_of_zipFloat {op : Binary64 → Binary64 → Binary64}
    (h : zipFloat op a b = .ok c) :
    ∃ x y, a.toBinary64 = .ok x ∧ b.toBinary64 = .ok y ∧
      c = .float (op x y) := by
  simp only [zipFloat, bind_eq_ok] at h
  obtain ⟨x, hx, y, hy, h⟩ := h
  exact ⟨x, y, hx, hy, (Except.ok.inj h).symm⟩

theorem add_cases (h : a.add b = .ok c) :
    (∃ m n, a = .int m ∧ b = .int n ∧ c = .int (m + n)) ∨
      zipFloat Binary64.add a b = .ok c := by
  cases a with
  | float x => exact Or.inr h
  | int m =>
      cases b with
      | float y => exact Or.inr h
      | int n => exact Or.inl ⟨m, n, rfl, rfl, (Except.ok.inj h).symm⟩

/-- The sum of two numbers that are not negative is not negative. -/
theorem add_nonneg (ha : Number.le 0 a = true) (hb : Number.le 0 b = true)
    (h : a.add b = .ok c) : Number.le 0 c = true := by
  rcases add_cases h with ⟨m, n, rfl, rfl, rfl⟩ | h
  · have hm : 0 ≤ m := zero_le_int.1 ha
    have hn : 0 ≤ n := zero_le_int.1 hb
    exact zero_le_int.2 (by omega)
  · obtain ⟨x, y, hx, hy, rfl⟩ := exists_of_zipFloat h
    obtain ⟨p, hp, hp0⟩ := exists_place_toBinary64 ha hx
    obtain ⟨q, hq, hq0⟩ := exists_place_toBinary64 hb hy
    obtain ⟨r, hr, hle⟩ := Binary64.le_place_add hp hq hp0 hq0
    exact (le_iff place?_zero hr).2 (hp0.trans hle)

theorem exists_place_toBinary64_pos {x : Binary64} (ha : Number.lt 0 a = true)
    (h : a.toBinary64 = .ok x) :
    ∃ p, (Number.float x).place? = some p ∧ Place.point 0 < p := by
  cases a with
  | float y =>
      obtain rfl : y = x := Except.ok.inj h
      obtain ⟨p, q, hp, hq, hlt⟩ := exists_places_of_lt ha
      obtain rfl : Place.point 0 = p := Option.some.inj (place?_zero.symm.trans hp)
      exact ⟨q, hq, hlt⟩
  | int n =>
      have hn : 0 < n := zero_lt_int.1 ha
      simp only [toBinary64] at h
      split at h
      · simp only [reduceCtorEq] at h
      · obtain rfl : Binary64.ofInt n = x := Except.ok.inj h
        rw [Binary64.ofInt, decide_eq_false (not_lt.2 hn.le)]
        have hone : 1 ≤ n.natAbs * unitsInOne :=
          Nat.mul_pos (Int.natAbs_pos.2 hn.ne') unitsInOne_pos
        obtain ⟨p, hp, hle⟩ := Binary64.le_place_ofRatio isCount_one hone
        exact ⟨p, hp, lt_of_lt_of_le (by simp) hle⟩

/-- Adding a positive number to one that is not negative gives a positive
one. -/
theorem add_pos (ha : Number.le 0 a = true) (hb : Number.lt 0 b = true)
    (h : a.add b = .ok c) : Number.lt 0 c = true := by
  rcases add_cases h with ⟨m, n, rfl, rfl, rfl⟩ | h
  · have hm : 0 ≤ m := zero_le_int.1 ha
    have hn : 0 < n := zero_lt_int.1 hb
    exact zero_lt_int.2 (by omega)
  · obtain ⟨x, y, hx, hy, rfl⟩ := exists_of_zipFloat h
    obtain ⟨p, hp, hp0⟩ := exists_place_toBinary64 ha hx
    obtain ⟨q, hq, hq0⟩ := exists_place_toBinary64_pos hb hy
    obtain ⟨r, hr, hle⟩ := Binary64.le_place_add hq hp hq0.le hp0
    rw [Binary64.add_comm y x] at hr
    exact (lt_iff place?_zero hr).2 (hq0.trans_le hle)

/-- A sum does not fall below its exact first part. -/
theorem le_add (hexact : a.IsExact) (ha : Number.le 0 a = true)
    (hb : Number.le 0 b = true) (h : a.add b = .ok c) : a.le c = true := by
  rcases add_cases h with ⟨m, n, rfl, rfl, rfl⟩ | h
  · have hn : 0 ≤ n := zero_le_int.1 hb
    exact int_le_int.2 (by omega)
  · obtain ⟨x, y, hx, hy, rfl⟩ := exists_of_zipFloat h
    obtain ⟨p, hp, hp0⟩ := exists_place_toBinary64 ha hx
    obtain ⟨q, hq, hq0⟩ := exists_place_toBinary64 hb hy
    obtain ⟨r, hr, hle⟩ := Binary64.le_place_add hp hq hp0 hq0
    obtain ⟨x', hx', hplace⟩ := hexact
    obtain rfl : x' = x := Except.ok.inj (hx'.symm.trans hx)
    exact (le_iff (hplace ▸ hp) hr).2 hle

/-- The way from an exact number up to a greater one has a length. -/
theorem sub_pos (ha : a.IsExact) (hb : b.IsExact) (hlt : a.lt b = true) :
    ∃ d, b.sub a = .ok d ∧ d.le 0 = false := by
  have hfloat : ∃ d, zipFloat Binary64.sub b a = .ok d ∧ d.le 0 = false := by
    obtain ⟨p, q, hp, hq, hpq⟩ := exists_places_of_lt hlt
    obtain ⟨x, hx, hxp⟩ := hb
    obtain ⟨y, hy, hyp⟩ := ha
    obtain ⟨r, hr, hpos⟩ :=
      Binary64.place_sub_pos (hxp.trans hq) (hyp.trans hp) hpq
    refine ⟨.float (x.sub y), by simp [zipFloat, hx, hy, bind, Except.bind,
      pure, Except.pure], ?_⟩
    rw [← Bool.not_eq_true, le_iff hr place?_zero, not_le]
    exact hpos
  cases b with
  | float x => exact hfloat
  | int m =>
      cases a with
      | float y => exact hfloat
      | int n =>
          have hnm : n < m := int_lt_int.1 hlt
          refine ⟨.int (m - n), rfl, ?_⟩
          rw [← Bool.not_eq_true]
          intro hle
          have hle' : m - n ≤ 0 := int_le_int.1 hle
          omega

end Number

end Montage
