import Mathlib.Algebra.Order.Field.Rat
import Mathlib.Tactic.Ring
import Montage.Proofs.Number.Fits

/-!
Counts of units that are doubled or halved, and the number that a count stands for.

While a value stays in range, twice the value takes no more bits; and half of a value that takes
more than 53 bits leaves none over.
-/

namespace Montage

/-- A multiple of a power of two that is not above `2 ^ 53` of them is a count. -/
theorem isCount_of_dvd {k s : Nat} (hdvd : 2 ^ s ∣ k) (hle : k ≤ 2 ^ s * 2 ^ 53)
    (hlt : k < unitsLimit) : IsCount k := by
  obtain ⟨q, rfl⟩ := hdvd
  have hq : q ≤ Nat.pow 2 53 := Nat.le_of_mul_le_mul_left hle (Nat.two_pow_pos s)
  rw [Nat.mul_comm] at hlt ⊢
  exact ⟨dvd_scaled hq s, hlt⟩

namespace IsCount

variable {k : Nat}

theorem double (h : IsCount k) (hlt : 2 * k < unitsLimit) : IsCount (2 * k) := by
  by_cases hzero : k = 0
  · rw [hzero]
    exact .zero
  · have hbits : (2 * k).log2 = k.log2 + 1 := Nat.log2_two_mul hzero
    refine ⟨?_, hlt⟩
    rw [hbits]
    by_cases hsmall : k.log2 < 52
    · rw [show k.log2 + 1 - 52 = 0 by omega]
      exact Nat.one_dvd _
    · rw [show k.log2 + 1 - 52 = k.log2 - 52 + 1 by omega, Nat.pow_eq, pow_succ, Nat.mul_comm]
      exact Nat.mul_dvd_mul_left 2 h.1

theorem half (h : IsCount k) (hlarge : 2 ^ 53 ≤ k) : ∃ m, IsCount m ∧ k = 2 * m := by
  have hpos : k ≠ 0 := by omega
  have hbits : 53 ≤ k.log2 := (Nat.le_log2 hpos).2 hlarge
  have hdvd : 2 * 2 ^ (k.log2 - 53) ∣ k := by
    have hsplit : k.log2 - 52 = k.log2 - 53 + 1 := by omega
    rw [Nat.mul_comm, ← pow_succ, ← hsplit]
    exact h.1
  obtain ⟨m, rfl⟩ : 2 ∣ k := (Nat.dvd_mul_right 2 _).trans hdvd
  have hm : m ≠ 0 := by omega
  have hlog : (2 * m).log2 = m.log2 + 1 := Nat.log2_two_mul hm
  refine ⟨m, ⟨?_, ?_⟩, rfl⟩
  · rw [hlog] at hdvd
    rw [Nat.pow_eq, show m.log2 - 52 = m.log2 + 1 - 53 by omega]
    exact Nat.dvd_of_mul_dvd_mul_left Nat.two_pos hdvd
  · have hlt : 2 * m < unitsLimit := h.2
    omega

end IsCount

/-- The number of so many units. -/
def Number.ofUnits (k : Nat) (h : IsCount k) : Number := .float (.finite false k h)

namespace Number

variable {k m : Nat} {hk : IsCount k} {hm : IsCount m}

theorem place?_ofUnits : (ofUnits k hk).place? = some (.point k) := rfl

theorem ofUnits_lt : (ofUnits k hk).lt (ofUnits m hm) = true ↔ k < m := by
  rw [lt_iff place?_ofUnits place?_ofUnits, Place.point_lt_point, Int.ofNat_lt]

theorem ofUnits_not_lt : (ofUnits k hk).lt (ofUnits m hm) = false ↔ m ≤ k := by
  rw [Bool.eq_false_iff, ne_eq, ofUnits_lt, not_lt]

/-- The quotient of a number by a power of two, where a count holds it. -/
theorem div_ofUnits {a : Number} {q : Nat} (ha : a.toBinary64 = .ok (.finite false k hk))
    (hpos : 0 < m) (hq : IsCount q) (h : k * unitsInOne = q * m) :
    a.div (ofUnits m hm) = .ok (ofUnits q hq) := by
  have hzero : (Binary64.finite false m hm).isZero = false := by
    rw [Binary64.isZero, beq_eq_false_iff_ne]
    exact hpos.ne'
  rw [ofUnits, div_float ha hzero, Binary64.div, if_neg hpos.ne', h,
    Binary64.ofRatio_mul_of_isCount hq hpos]
  rfl

end Number

end Montage
