import Mathlib.Algebra.Order.Ring.Int
import Montage.Number.Basic

/-!
The line on which numbers lie.  Places are linearly ordered, and the comparisons of numbers are
those of their places; a NaN has no place and compares with nothing.
-/

namespace Montage

theorem unitsInOne_pos : 0 < unitsInOne := by decide +kernel

namespace Place

instance : LinearOrder Place where
  le p q := q.lt p = false
  lt p q := p.lt q = true
  le_refl p := by cases p <;> simp [Place.lt]
  le_trans p q r := by
    cases p <;> cases q <;> cases r <;> simp [Place.lt]
    omega
  le_antisymm p q := by
    cases p <;> cases q <;> simp [Place.lt]
    omega
  lt_iff_le_not_ge p q := by
    cases p <;> cases q <;> simp [Place.lt]
    omega
  le_total p q := by
    cases p <;> cases q <;> simp [Place.lt]
    omega
  toDecidableLE p q := inferInstanceAs (Decidable (q.lt p = false))
  toDecidableLT p q := inferInstanceAs (Decidable (p.lt q = true))
  toDecidableEq := inferInstance

theorem lt_iff_lt {p q : Place} : p.lt q = true ↔ p < q := Iff.rfl

@[simp] theorem point_lt_point {m n : Int} : point m < point n ↔ m < n := by
  simp [← lt_iff_lt, Place.lt]

@[simp] theorem point_le_point {m n : Int} : point m ≤ point n ↔ m ≤ n := by
  rw [← not_lt, ← not_lt, point_lt_point]

@[simp] theorem bottom_le (p : Place) : bottom ≤ p := by
  rw [← not_lt, ← lt_iff_lt]
  cases p <;> simp [Place.lt]

@[simp] theorem le_top (p : Place) : p ≤ top := by
  rw [← not_lt, ← lt_iff_lt]
  cases p <;> simp [Place.lt]

@[simp] theorem not_top_le_point (n : Int) : ¬top ≤ point n := by
  rw [not_le, ← lt_iff_lt]
  rfl

@[simp] theorem not_point_le_bottom (n : Int) : ¬point n ≤ bottom := by
  rw [not_le, ← lt_iff_lt]
  rfl

/-- Only points lie between points. -/
theorem exists_point {m n : Int} {p : Place} (hlow : point m ≤ p) (hhigh : p ≤ point n) :
    ∃ k, p = point k ∧ m ≤ k ∧ k ≤ n := by
  cases p with
  | bottom => exact absurd hlow (not_point_le_bottom m)
  | top => exact absurd hhigh (not_top_le_point n)
  | point k => exact ⟨k, rfl, point_le_point.1 hlow, point_le_point.1 hhigh⟩

end Place

namespace Number

variable {a b : Number} {p q : Place}

theorem lt_iff (ha : a.place? = some p) (hb : b.place? = some q) :
    a.lt b = true ↔ p < q := by
  simp [Number.lt, ha, hb, Place.lt_iff_lt]

theorem eq_iff (ha : a.place? = some p) (hb : b.place? = some q) :
    a.eq b = true ↔ p = q := by
  simp [Number.eq, ha, hb]

theorem le_iff (ha : a.place? = some p) (hb : b.place? = some q) :
    a.le b = true ↔ p ≤ q := by
  rw [Number.le, Bool.or_eq_true, lt_iff ha hb, eq_iff ha hb, le_iff_lt_or_eq]

theorem exists_places_of_lt (h : a.lt b = true) :
    ∃ p q, a.place? = some p ∧ b.place? = some q ∧ p < q := by
  unfold Number.lt at h
  split at h
  · next p q hp hq => exact ⟨p, q, hp, hq, h⟩
  · contradiction

theorem exists_places_of_le (h : a.le b = true) :
    ∃ p q, a.place? = some p ∧ b.place? = some q ∧ p ≤ q := by
  rcases hp : a.place? with _ | p
  · simp [Number.le, Number.lt, Number.eq, hp] at h
  · rcases hq : b.place? with _ | q
    · simp [Number.le, Number.lt, Number.eq, hp, hq] at h
    · exact ⟨p, q, rfl, rfl, (le_iff hp hq).1 h⟩

theorem exists_places_of_eq (h : a.eq b = true) :
    ∃ p, a.place? = some p ∧ b.place? = some p := by
  unfold Number.eq at h
  split at h
  · next p q hp hq => exact ⟨p, hp, by rw [hq, of_decide_eq_true h]⟩
  · contradiction

/-- Every number but a NaN has a place. -/
theorem exists_place (h : a.isNaN = false) : ∃ p, a.place? = some p := by
  cases a with
  | int n => exact ⟨_, rfl⟩
  | float x =>
      rcases x with _ | ⟨_ | _⟩ | ⟨s, m, hm⟩
      · simp [isNaN] at h
      all_goals exact ⟨_, rfl⟩

theorem isNaN_eq_false (ha : a.place? = some p) : a.isNaN = false := by
  rcases a with n | _ | s | ⟨s, m, hm⟩
  · rfl
  · simp [place?] at ha
  · rfl
  · rfl

theorem place?_max (ha : a.place? = some p) (hb : b.place? = some q) :
    (a.max b).place? = some (Max.max p q) := by
  unfold Number.max
  split
  · next h => rw [hb, max_eq_right ((lt_iff ha hb).1 h).le]
  · next h =>
      rw [lt_iff ha hb, not_lt] at h
      rw [ha, max_eq_left h]

theorem place?_min (ha : a.place? = some p) (hb : b.place? = some q) :
    (a.min b).place? = some (Min.min p q) := by
  unfold Number.min
  split
  · next h => rw [hb, min_eq_right ((lt_iff hb ha).1 h).le]
  · next h =>
      rw [lt_iff hb ha, not_lt] at h
      rw [ha, min_eq_left h]

theorem eq_trans {c : Number} (hab : a.eq b = true) (hbc : b.eq c = true) :
    a.eq c = true := by
  obtain ⟨p, ha, hb⟩ := exists_places_of_eq hab
  obtain ⟨q, hb', hc⟩ := exists_places_of_eq hbc
  rw [hb, Option.some.injEq] at hb'
  exact (eq_iff ha hc).2 hb'

theorem le_trans {c : Number} (hab : a.le b = true) (hbc : b.le c = true) :
    a.le c = true := by
  obtain ⟨p, q, hp, hq, hpq⟩ := exists_places_of_le hab
  obtain ⟨q', r, hq', hr, hqr⟩ := exists_places_of_le hbc
  rw [hq, Option.some.injEq] at hq'
  subst hq'
  exact (le_iff hp hr).2 (hpq.trans hqr)

theorem lt_trans {c : Number} (hab : a.lt b = true) (hbc : b.lt c = true) :
    a.lt c = true := by
  obtain ⟨p, q, hp, hq, hpq⟩ := exists_places_of_lt hab
  obtain ⟨q', r, hq', hr, hqr⟩ := exists_places_of_lt hbc
  rw [hq, Option.some.injEq] at hq'
  subst hq'
  exact (lt_iff hp hr).2 (hpq.trans hqr)

protected theorem lt_of_le_of_lt {c : Number} (hab : a.le b = true) (hbc : b.lt c = true) :
    a.lt c = true := by
  obtain ⟨p, q, hp, hq, hpq⟩ := exists_places_of_le hab
  obtain ⟨q', r, hq', hr, hqr⟩ := exists_places_of_lt hbc
  rw [hq, Option.some.injEq] at hq'
  subst hq'
  exact (lt_iff hp hr).2 (hpq.trans_lt hqr)

protected theorem lt_of_lt_of_le {c : Number} (hab : a.lt b = true) (hbc : b.le c = true) :
    a.lt c = true := by
  obtain ⟨p, q, hp, hq, hpq⟩ := exists_places_of_lt hab
  obtain ⟨q', r, hq', hr, hqr⟩ := exists_places_of_le hbc
  rw [hq, Option.some.injEq] at hq'
  subst hq'
  exact (lt_iff hp hr).2 (hpq.trans_le hqr)

/-- A number is the same as itself unless it is a NaN. -/
theorem eq_self (h : a.isNaN = false) : a.eq a = true := by
  obtain ⟨p, hp⟩ := exists_place h
  exact (eq_iff hp hp).2 rfl

theorem place?_of_isNaN (h : a.isNaN = true) : a.place? = none := by
  cases hp : a.place? with
  | none => rfl
  | some p =>
      rw [isNaN_eq_false hp] at h
      contradiction

section Bounds

variable (hb : b.place? = some q)
include hb

/-- What is not below a bound is at least as great, unless it is a NaN. -/
theorem atLeast_of_not_lt (h : a.lt b = false) : b.le a = !a.isNaN := by
  cases hnan : a.isNaN with
  | false =>
      obtain ⟨p, hp⟩ := exists_place hnan
      apply (le_iff hb hp).2
      rw [← not_lt, ← lt_iff hp hb, h]
      exact Bool.false_ne_true
  | true => simp [Number.le, Number.lt, Number.eq, hb, place?_of_isNaN hnan]

/-- What is not above a bound is at most as great, unless it is a NaN. -/
theorem atMost_of_not_gt (h : b.lt a = false) : a.le b = !a.isNaN := by
  cases hnan : a.isNaN with
  | false =>
      obtain ⟨p, hp⟩ := exists_place hnan
      apply (le_iff hp hb).2
      rw [← not_lt, ← lt_iff hb hp, h]
      exact Bool.false_ne_true
  | true => simp [Number.le, Number.lt, Number.eq, hb, place?_of_isNaN hnan]

/-- What is not at most a bound is greater, unless it is a NaN. -/
theorem above_of_not_le (h : a.le b = false) : b.lt a = !a.isNaN := by
  cases hnan : a.isNaN with
  | false =>
      obtain ⟨p, hp⟩ := exists_place hnan
      apply (lt_iff hb hp).2
      rw [← not_le, ← le_iff hp hb, h]
      exact Bool.false_ne_true
  | true => simp [Number.lt, hb, place?_of_isNaN hnan]

end Bounds

@[simp] theorem place?_int (n : Int) :
    (Number.int n).place? = some (.point (n * unitsInOne)) := rfl

@[simp] theorem place?_zero : (0 : Number).place? = some (.point 0) := by
  rw [show (0 : Number) = .int 0 from rfl, place?_int, Int.zero_mul]

theorem units_pos : (0 : Int) < unitsInOne :=
  Int.natCast_pos.2 unitsInOne_pos

theorem int_lt_int {m n : Int} :
    (Number.int m).lt (.int n) = true ↔ m < n := by
  rw [lt_iff (place?_int m) (place?_int n), Place.point_lt_point,
    mul_lt_mul_iff_left₀ units_pos]

theorem int_le_int {m n : Int} :
    (Number.int m).le (.int n) = true ↔ m ≤ n := by
  rw [le_iff (place?_int m) (place?_int n), Place.point_le_point,
    mul_le_mul_iff_left₀ units_pos]

theorem zero_le_int {n : Int} : Number.le 0 (.int n) = true ↔ 0 ≤ n :=
  int_le_int

theorem zero_lt_int {n : Int} : Number.lt 0 (.int n) = true ↔ 0 < n :=
  int_lt_int

theorem le_of_lt {a b : Number} (h : a.lt b = true) : a.le b = true := by
  rw [Number.le, h, Bool.true_or]

theorem int_eq_int {m n : Int} :
    (Number.int m).eq (.int n) = true ↔ m = n := by
  rw [eq_iff (place?_int m) (place?_int n), Place.point.injEq,
    mul_left_inj' units_pos.ne']

end Number

/-- A positive place is that of one binary64 value only. -/
theorem Binary64.eq_of_place? {x : Binary64} {k : Nat} (hk : 0 < k)
    (hx : (Number.float x).place? = some (.point k)) : ∃ hcount, x = .finite false k hcount := by
  rcases x with _ | ⟨_ | _⟩ | ⟨_ | _, m, hm⟩
  case finite.false =>
    rw [Number.place?, signedCount, if_neg Bool.false_ne_true, Option.some.injEq,
      Place.point.injEq, Nat.cast_inj] at hx
    obtain rfl : m = k := hx
    exact ⟨hm, rfl⟩
  case finite.true =>
    rw [Number.place?, signedCount, if_pos rfl, Option.some.injEq, Place.point.injEq] at hx
    omega
  all_goals simp only [Number.place?, Option.some.injEq, reduceCtorEq] at hx

end Montage
