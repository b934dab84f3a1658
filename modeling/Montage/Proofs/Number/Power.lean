import Mathlib.Tactic.Ring
import Montage.Number.Power
import Montage.Proofs.Number.AtMost

/-!
Powers of two with an exponent that is not too far from zero: they are neither zero nor infinite.
-/

namespace Montage

/-- The first terms of the exponential series of what is at most one: each at most
one, and the first one is one. -/
theorem expSeries_bounds {x : Nat} (hx : x ≤ seriesOne) (k : Nat) :
    seriesOne ≤ (expSeries x k).1 ∧ (expSeries x k).1 ≤ (k + 1) * seriesOne ∧
      (expSeries x k).2 ≤ seriesOne := by
  induction k with
  | zero => exact ⟨le_rfl, (Nat.one_mul _).ge, le_rfl⟩
  | succ k ih =>
      obtain ⟨hone, hsum, hterm⟩ := ih
      have hnext : (expSeries x k).2 * x / ((k + 1) * seriesOne) ≤ seriesOne := by
        refine Nat.div_le_of_le_mul ?_
        calc (expSeries x k).2 * x ≤ seriesOne * seriesOne := Nat.mul_le_mul hterm hx
          _ ≤ (k + 1) * seriesOne * seriesOne := by
              rw [Nat.mul_assoc]
              exact Nat.le_mul_of_pos_left _ (Nat.succ_pos k)
      refine ⟨hone.trans (Nat.le_add_right _ _), ?_, hnext⟩
      calc (expSeries x k).1 + (expSeries x k).2 * x / ((k + 1) * seriesOne)
          ≤ (k + 1) * seriesOne + seriesOne := Nat.add_le_add hsum hnext
        _ = (k + 1 + 1) * seriesOne := by ring

theorem powTwoFraction_bounds {f : Nat} (hf : f ≤ seriesOne) :
    seriesOne ≤ powTwoFraction f ∧ powTwoFraction f ≤ 65 * seriesOne := by
  have hlog : logTwo ≤ seriesOne := by decide +kernel
  have hpos : 0 < seriesOne := by decide +kernel
  have hx : f * logTwo / seriesOne ≤ seriesOne :=
    Nat.div_le_of_le_mul (Nat.mul_le_mul hf hlog)
  obtain ⟨hone, hsum, -⟩ := expSeries_bounds hx 64
  exact ⟨hone, hsum⟩

/-- A quotient that is not below one unit is not rounded to zero. -/
theorem isZero_ofRatio (negative : Bool) {num den : Nat} (hden : 0 < den)
    (hle : den ≤ num) : (Binary64.ofRatio negative num den).isZero = false := by
  have hquotient : 1 ≤ num / den := (Nat.one_le_div_iff hden).2 hle
  have hcount : 1 ≤ roundCount num den := by
    rw [roundCount, Nat.pow_eq]
    generalize hd : droppedBits num den = d
    have hpow : 2 ^ d ≤ num / den :=
      (Nat.pow_le_pow_right Nat.two_pos (hd ▸ Nat.sub_le _ _)).trans
        (Nat.log2_self_le (Nat.one_le_iff_ne_zero.1 hquotient))
    have hrounded : 1 ≤ roundHalfEven num (den * 2 ^ d) := by
      refine le_trans ?_ (div_le_roundHalfEven num (den * 2 ^ d))
      rw [← Nat.div_div_eq_div_mul]
      exact (Nat.one_le_div_iff (Nat.two_pow_pos d)).2 hpow
    exact Nat.mul_pos hrounded (Nat.two_pow_pos d)
  simp only [Binary64.ofRatio]
  split
  · exact beq_eq_false_iff_ne.2 (Nat.one_le_iff_ne_zero.1 hcount)
  · rfl

/-- The exponents whose powers of two are in range. -/
def exponentLimit : Nat := 1000

theorem powTwoParts_normal {whole : Int} (hwhole : whole.natAbs ≤ exponentLimit)
    {fraction : Nat} (hfraction : fraction ≤ unitsInOne) :
    (powTwoParts whole fraction).isInfinite = false ∧
      (powTwoParts whole fraction).isZero = false := by
  have hlimit : Nat.pow 2 exponentLimit ≤ unitsInOne := by decide +kernel
  have hgreatest : 65 * Nat.pow 2 exponentLimit < Number.greatestPower := by
    decide +kernel
  have hone : 0 < seriesOne := by decide +kernel
  have hpow : ∀ e j, j ≤ e → Nat.pow 2 j ≤ Nat.pow 2 e :=
    fun _ _ => Nat.pow_le_pow_right Nat.two_pos
  have hup := hpow exponentLimit whole.toNat (by omega)
  have hdown := hpow exponentLimit (-whole).toNat (by omega)
  generalize Nat.pow 2 exponentLimit = limit at hlimit hgreatest hup hdown
  have hdownpos : 0 < Nat.pow 2 (-whole).toNat := Nat.two_pow_pos _
  have huppos : 0 < Nat.pow 2 whole.toNat := Nat.two_pow_pos _
  have hscaled : ∀ scaled, seriesOne ≤ scaled → scaled ≤ 65 * seriesOne →
      (Binary64.ofRatio false (scaled * unitsInOne * Nat.pow 2 whole.toNat)
        (seriesOne * Nat.pow 2 (-whole).toNat)).isInfinite = false ∧
      (Binary64.ofRatio false (scaled * unitsInOne * Nat.pow 2 whole.toNat)
        (seriesOne * Nat.pow 2 (-whole).toNat)).isZero = false := by
    intro scaled hlow hhigh
    constructor
    · refine Number.isInfinite_ofRatio _ ?_
      calc scaled * unitsInOne * Nat.pow 2 whole.toNat /
            (seriesOne * Nat.pow 2 (-whole).toNat)
          ≤ scaled * unitsInOne * Nat.pow 2 whole.toNat / seriesOne :=
            Nat.div_le_div_left (Nat.le_mul_of_pos_right _ hdownpos) hone
        _ ≤ seriesOne * (65 * limit * unitsInOne) / seriesOne := by
            refine Nat.div_le_div_right ?_
            calc scaled * unitsInOne * Nat.pow 2 whole.toNat
                ≤ 65 * seriesOne * unitsInOne * limit :=
                  Nat.mul_le_mul (Nat.mul_le_mul_right _ hhigh) hup
              _ = seriesOne * (65 * limit * unitsInOne) := by ring
        _ = 65 * limit * unitsInOne := Nat.mul_div_cancel_left _ hone
        _ < Number.greatestPower * unitsInOne :=
            Nat.mul_lt_mul_of_pos_right hgreatest unitsInOne_pos
    · refine isZero_ofRatio _ (Nat.mul_pos hone hdownpos) ?_
      calc seriesOne * Nat.pow 2 (-whole).toNat
          ≤ scaled * unitsInOne := Nat.mul_le_mul hlow (hdown.trans hlimit)
        _ ≤ scaled * unitsInOne * Nat.pow 2 whole.toNat :=
            Nat.le_mul_of_pos_right _ huppos
  rw [powTwoParts]
  split
  · exact hscaled seriesOne le_rfl (Nat.le_mul_of_pos_left _ (by decide))
  · have hf : fraction * seriesOne / unitsInOne ≤ seriesOne :=
      Nat.div_le_of_le_mul (Nat.mul_le_mul_right _ hfraction)
    obtain ⟨hlow, hhigh⟩ := powTwoFraction_bounds hf
    exact hscaled _ hlow hhigh

/-- Two to the power of what is not beyond the limit is neither zero nor infinite. -/
theorem exists_powTwo {y : Binary64} (h : (Number.float y).AtMost exponentLimit) :
    ∃ x, powTwo? y = .ok x ∧ x.isZero = false := by
  obtain ⟨n, hn, hle⟩ := h
  rcases y with _ | ⟨_ | _⟩ | ⟨s, m, hm⟩ <;>
    simp only [Number.place?, Option.some.injEq, reduceCtorEq, Place.point.injEq] at hn
  have hunits := unitsInOne_pos
  have hnear : ¬2048 * unitsInOne ≤ m := by
    rw [← hn, natAbs_signedCount] at hle
    simp only [exponentLimit] at hle
    omega
  have hwhole : (n.fdiv unitsInOne).natAbs ≤ exponentLimit := by
    simp only [exponentLimit] at hle ⊢
    have hpos : (0 : Int) < unitsInOne := Int.natCast_pos.2 hunits
    have hlow : -1000 ≤ n / unitsInOne := Int.le_ediv_of_mul_le hpos (by omega)
    have hhigh : n / unitsInOne ≤ 1000 := Int.ediv_le_of_le_mul hpos (by omega)
    rw [Int.fdiv_eq_ediv_of_nonneg _ hpos.le]
    omega
  have hfraction : (n.fmod unitsInOne).toNat ≤ unitsInOne := by
    have hlt := Int.fmod_lt_of_pos n (Int.natCast_pos.2 unitsInOne_pos)
    omega
  have hpow : powTwo (.finite s m hm) =
      powTwoParts (n.fdiv unitsInOne) (n.fmod unitsInOne).toNat := by
    rw [powTwo, if_neg hnear, hn]
  obtain ⟨hfinite, hzero⟩ := powTwoParts_normal hwhole hfraction
  refine ⟨powTwo (.finite s m hm), ?_, hpow ▸ hzero⟩
  rw [powTwo?, hpow, hfinite]
  rfl

end Montage
