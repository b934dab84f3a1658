import Mathlib.Algebra.Order.Field.Basic
import Mathlib.Algebra.Order.Ring.Cast
import Montage.Proofs.Number.Exact

/-!
The exact values of numbers, and operations that are not rounded.

A sum, difference or product is finite only if both of its operands are.
-/

namespace Montage

/-- The exact value of a number; zero for what is not finite. -/
def Number.value : Number → ℚ
  | .int n => n
  | .float (.finite s m _) => Binary64.signedCount s m / unitsInOne
  | .float _ => 0

namespace Number

variable {a b : Number} {n : Int} {q : ℚ}

theorem value_of_place? (h : a.place? = some (.point n)) : a.value = n / unitsInOne := by
  have hunits : (unitsInOne : ℚ) ≠ 0 := Nat.cast_ne_zero.2 unitsInOne_pos.ne'
  rcases a with k | _ | ⟨_ | _⟩ | ⟨s, m, hm⟩ <;>
    simp only [place?, Option.some.injEq, Place.point.injEq, reduceCtorEq] at h
  · rw [value, ← h]
    push_cast
    exact (mul_div_cancel_right₀ _ hunits).symm
  · rw [value, h]

theorem value_of_not_point (h : ∀ n, a.place? ≠ some (.point n)) : a.value = 0 := by
  rcases a with n | _ | _ | ⟨s, m, hm⟩
  · exact absurd rfl (h _)
  · rfl
  · rfl
  · exact absurd rfl (h _)

theorem value_eq_of_place?_eq (h : a.place? = b.place?) : a.value = b.value := by
  by_cases hpoint : ∃ n, a.place? = some (.point n)
  · obtain ⟨n, hn⟩ := hpoint
    rw [value_of_place? hn, value_of_place? (h ▸ hn)]
  · rw [not_exists] at hpoint
    rw [value_of_not_point hpoint, value_of_not_point (h ▸ hpoint)]

/-- The same place is the same value. -/
theorem value_eq_of_eq (h : a.eq b = true) : a.value = b.value := by
  obtain ⟨p, ha, hb⟩ := exists_places_of_eq h
  exact value_eq_of_place?_eq (ha.trans hb.symm)

/-- A number that is exact has the value of its binary64 value. -/
theorem IsExact.value_eq {x : Binary64} (h : a.IsExact) (hx : a.toBinary64 = .ok x) :
    (Number.float x).value = a.value := by
  obtain ⟨y, hy, hplace⟩ := h
  obtain rfl : y = x := Except.ok.inj (hy.symm.trans hx)
  exact value_eq_of_place?_eq hplace

/-- A number of units over the units in one. -/
theorem is_of_units {m : Int} {k : Nat} (hplace : a.place? = some (.point n))
    (hk : 0 < k) (hunits : n * k = m * unitsInOne) : a.Is (m / k) := by
  refine ⟨n, hplace, ?_⟩
  have hone : (unitsInOne : ℚ) ≠ 0 := Nat.cast_ne_zero.2 unitsInOne_pos.ne'
  rw [div_eq_div_iff hone (Nat.cast_ne_zero.2 hk.ne')]
  exact_mod_cast hunits

theorem Is.value_eq (h : a.Is q) : a.value = q := by
  obtain ⟨n, hn, rfl⟩ := h
  exact value_of_place? hn

end Number

namespace Binary64

variable {x y : Binary64}

theorem value_finite (s : Bool) {m : Nat} (hm : IsCount m) :
    (Number.float (finite s m hm)).value =
      if s then -((m : ℚ) / unitsInOne) else (m : ℚ) / unitsInOne := by
  rw [Number.value, signedCount]
  cases s with
  | false => rfl
  | true => rw [if_pos rfl, if_pos rfl, Int.cast_neg, Int.cast_natCast, neg_div]

theorem isFinite_of_add (h : (x.add y).isFinite = true) :
    x.isFinite = true ∧ y.isFinite = true := by
  rcases x with _ | s | ⟨s, m, hm⟩ <;> rcases y with _ | t | ⟨t, n, hn⟩
  case finite.finite => exact ⟨rfl, rfl⟩
  case infinity.infinity =>
    simp only [add] at h
    split at h <;> exact absurd h Bool.false_ne_true
  all_goals exact absurd h Bool.false_ne_true

theorem isFinite_of_sub (h : (x.sub y).isFinite = true) :
    x.isFinite = true ∧ y.isFinite = true := by
  have hparts := isFinite_of_add h
  cases y with
  | nan => exact hparts
  | infinity => exact hparts
  | finite => exact ⟨hparts.1, rfl⟩

theorem isFinite_of_mul (h : (x.mul y).isFinite = true) :
    x.isFinite = true ∧ y.isFinite = true := by
  rcases x with _ | s | ⟨s, m, hm⟩ <;> rcases y with _ | t | ⟨t, n, hn⟩
  case finite.finite => exact ⟨rfl, rfl⟩
  case infinity.finite =>
    simp only [mul] at h
    split at h <;> exact absurd h Bool.false_ne_true
  case finite.infinity =>
    simp only [mul] at h
    split at h <;> exact absurd h Bool.false_ne_true
  all_goals exact absurd h Bool.false_ne_true

end Binary64

namespace Number

variable {a b c : Number} {n : Int} {q : ℚ}

/-- The number is finite, with some exact value. -/
def IsFinite (a : Number) : Prop := ∃ q, a.Is q

theorem IsFinite.is (h : a.IsFinite) : a.Is a.value := by
  obtain ⟨q, hq⟩ := h
  rwa [hq.value_eq]

theorem isFinite_int (n : Int) : (Number.int n).IsFinite := ⟨n, is_int n⟩

theorem isFinite_float {x : Binary64} : (Number.float x).IsFinite ↔ x.isFinite = true := by
  constructor
  · rintro ⟨q, n, hn, -⟩
    rcases x with _ | ⟨_ | _⟩ | _
    · simp only [place?, reduceCtorEq] at hn
    · simp only [place?, Option.some.injEq, reduceCtorEq] at hn
    · simp only [place?, Option.some.injEq, reduceCtorEq] at hn
    · rfl
  · intro h
    cases x with
    | nan => exact absurd h Bool.false_ne_true
    | infinity => exact absurd h Bool.false_ne_true
    | finite s m hm => exact ⟨_, _, rfl, rfl⟩

/-- A finite number that binary64 holds is some finite value. -/
theorem Is.exists_binary64 (ha : a.Is q) (hexact : a.IsExact) :
    ∃ x, a.toBinary64 = .ok x ∧ x.isFinite = true ∧ (Number.float x).value = q := by
  obtain ⟨x, hx, hplace⟩ := hexact
  obtain ⟨n, hn, rfl⟩ := ha
  have hpoint := hplace.trans hn
  exact ⟨x, hx, isFinite_float.1 ⟨_, n, hpoint, rfl⟩, value_of_place? hpoint⟩

/-- What has a finite binary64 value is finite. -/
theorem isFinite_of_toBinary64 {x : Binary64} (hx : a.toBinary64 = .ok x)
    (h : x.isFinite = true) : a.IsFinite := by
  cases a with
  | int n => exact isFinite_int n
  | float y =>
      obtain rfl : y = x := Except.ok.inj hx
      exact isFinite_float.2 h

section Operands

variable {op : Binary64 → Binary64 → Binary64}
  (hop : ∀ {x y}, (op x y).isFinite = true → x.isFinite = true ∧ y.isFinite = true)
include hop

theorem IsFinite.of_zipFloat (h : zipFloat op a b = .ok c) (hc : c.IsFinite) :
    a.IsFinite ∧ b.IsFinite := by
  obtain ⟨x, y, hx, hy, rfl⟩ := exists_of_zipFloat h
  obtain ⟨hfirst, hsecond⟩ := hop (isFinite_float.1 hc)
  exact ⟨isFinite_of_toBinary64 hx hfirst, isFinite_of_toBinary64 hy hsecond⟩

end Operands

theorem IsFinite.of_add (h : a.add b = .ok c) (hc : c.IsFinite) : a.IsFinite ∧ b.IsFinite := by
  cases a <;> cases b
  case int.int m n => exact ⟨isFinite_int m, isFinite_int n⟩
  all_goals exact of_zipFloat Binary64.isFinite_of_add h hc

theorem IsFinite.of_sub (h : a.sub b = .ok c) (hc : c.IsFinite) : a.IsFinite ∧ b.IsFinite := by
  cases a <;> cases b
  case int.int m n => exact ⟨isFinite_int m, isFinite_int n⟩
  all_goals exact of_zipFloat Binary64.isFinite_of_sub h hc

theorem IsFinite.of_mul (h : a.mul b = .ok c) (hc : c.IsFinite) : a.IsFinite ∧ b.IsFinite := by
  cases a <;> cases b
  case int.int m n => exact ⟨isFinite_int m, isFinite_int n⟩
  all_goals exact of_zipFloat Binary64.isFinite_of_mul h hc

theorem Is.unique {r : ℚ} (h : a.Is q) (h' : a.Is r) : q = r :=
  h.value_eq.symm.trans h'.value_eq

/-- What is equal to a finite number has its exact value. -/
theorem Is.of_eq (h : a.Is q) (heq : a.eq b = true) : b.Is q := by
  obtain ⟨p, ha, hb⟩ := exists_places_of_eq heq
  obtain ⟨n, hn, hq⟩ := h
  exact ⟨n, by rw [hb, ← ha, hn], hq⟩

theorem Is.le_iff {x y : ℚ} (ha : a.Is x) (hb : b.Is y) : a.le b = true ↔ x ≤ y := by
  obtain ⟨m, hm, rfl⟩ := ha
  obtain ⟨n, hn, rfl⟩ := hb
  have hunits : (0 : ℚ) < unitsInOne := Nat.cast_pos.2 unitsInOne_pos
  rw [Number.le_iff hm hn, Place.point_le_point, div_le_div_iff_of_pos_right hunits, Int.cast_le]

/-- The distance of a finite number from zero. -/
theorem Is.abs (h : a.Is q) : a.abs.Is |q| := by
  obtain ⟨n, hn, rfl⟩ := h
  have hunits : (0 : ℚ) < unitsInOne := Nat.cast_pos.2 unitsInOne_pos
  refine ⟨n.natAbs, ?_, ?_⟩
  · cases a with
    | int k =>
        obtain rfl : k * unitsInOne = n := Place.point.inj (Option.some.inj hn)
        rw [Number.abs, place?_int, Int.natAbs_mul, Int.natAbs_natCast, Nat.cast_mul]
    | float x =>
        rcases x with _ | ⟨_ | _⟩ | ⟨s, m, hm⟩
        · simp only [place?, reduceCtorEq] at hn
        · simp only [place?, Option.some.injEq, reduceCtorEq] at hn
        · simp only [place?, Option.some.injEq, reduceCtorEq] at hn
        · obtain rfl : Binary64.signedCount s m = n := Place.point.inj (Option.some.inj hn)
          rw [natAbs_signedCount]
          rfl
  · rw [abs_div, abs_of_pos hunits, Int.cast_natCast, Nat.cast_natAbs, Int.cast_abs]

/-- What is at most a finite distance from zero is finite. -/
theorem IsFinite.of_abs_le (hb : b.IsFinite) (h : a.abs.le b = true) : a.IsFinite := by
  obtain ⟨_, n, hn, -⟩ := hb
  cases a with
  | int k => exact isFinite_int k
  | float x =>
      cases x with
      | nan => simp only [Number.abs, Binary64.abs, Number.le, Number.lt, Number.eq, place?,
          Bool.or_self, Bool.false_eq_true] at h
      | infinity s =>
          rw [Number.le_iff (p := .top) rfl hn] at h
          exact absurd h (Place.not_top_le_point n)
      | finite s m hm => exact isFinite_float.2 rfl

/-- An operation is not rounded for two numbers: of finite ones it gives the exact result. -/
def Unrounded (f : ℚ → ℚ → ℚ) (op : Number → Number → Except Fault Number) (a b : Number) :
    Prop :=
  ∀ ⦃x y c⦄, a.Is x → b.Is y → op a b = .ok c → c.Is (f x y)

/-- One exact result is enough, for exact values are unique. -/
theorem unrounded_of_is {f : ℚ → ℚ → ℚ} {op : Number → Number → Except Fault Number} {x y : ℚ}
    (ha : a.Is x) (hb : b.Is y) (hop : op a b = .ok c) (hc : c.Is (f x y)) :
    Unrounded f op a b := by
  intro x' y' c' hx hy hc'
  rw [hx.unique ha, hy.unique hb, ← Except.ok.inj (hop.symm.trans hc')]
  exact hc

/-- A difference is not rounded when it is as many units as it should be. -/
theorem unrounded_of_units {op : Number → Number → Except Fault Number} {k : Int}
    (ha : a.place? = some (.point k)) (hb : b.place? = some (.point n))
    (hop : (op a b).map place? = .ok (some (.point (k - n)))) :
    Unrounded (· - ·) op a b := by
  obtain ⟨c, hc, hplace⟩ := exists_of_map_eq_ok hop
  refine unrounded_of_is ⟨k, ha, rfl⟩ ⟨n, hb, rfl⟩ hc ⟨k - n, hplace, ?_⟩
  rw [Int.cast_sub, sub_div]

section Whole

variable (m n : Int)

theorem unrounded_int {f : ℚ → ℚ → ℚ} {op : Number → Number → Except Fault Number} {k : Int}
    (hop : op (.int m) (.int n) = .ok (.int k)) (hf : f m n = k) :
    Unrounded f op (.int m) (.int n) :=
  unrounded_of_is (is_int m) (is_int n) hop (hf ▸ is_int k)

theorem unrounded_add_int : Unrounded (· + ·) add (.int m) (.int n) :=
  unrounded_int m n rfl (Int.cast_add m n).symm

theorem unrounded_sub_int : Unrounded (· - ·) sub (.int m) (.int n) :=
  unrounded_int m n rfl (Int.cast_sub m n).symm

theorem unrounded_mul_int : Unrounded (· * ·) mul (.int m) (.int n) :=
  unrounded_int m n rfl (Int.cast_mul m n).symm

end Whole

end Number

end Montage
