import Mathlib.Algebra.Ring.Int.Parity
import Mathlib.Tactic.Linarith
import Montage.Proofs.Number.Finite

/-!
The nearest multiple of the last place, and the nearest count.

A value that is rounded to so many places becomes the nearest multiple of the last one, a tie going
to the even multiple.  There is one such multiple, so the rounded value depends on nothing but the
exact one, and it stays the same for any value that is not farther from it.  A quotient that is
rounded to 53 bits becomes the nearest count.
-/

namespace Montage

/-- So many units of the last place are nearest to a value; of two numbers of units that are equally
near, the even one. -/
structure IsNearest (places : Nat) (k : ℤ) (q : ℚ) : Prop where
  nearest : ∀ j : ℤ, |(k : ℚ) / 10 ^ places - q| ≤ |(j : ℚ) / 10 ^ places - q|
  even_of_tie : ∀ j : ℤ, j ≠ k →
    |(k : ℚ) / 10 ^ places - q| = |(j : ℚ) / 10 ^ places - q| → Even k

section Spacing

variable {c d u : ℚ}

/-- A distance, measured in steps. -/
theorem abs_div_sub (hc : 0 < c) (p q : ℚ) : |p / c - q| = |p - q * c| / c := by
  rw [← abs_of_pos hc, ← abs_div, abs_of_pos hc, sub_div, mul_div_cancel_right₀ _ hc.ne']

/-- What a step in either direction takes no nearer to zero is within half a step of it. -/
theorem abs_le_half_of_steps (hu : 0 < u) (hup : |d| ≤ |d + u|) (hdown : |d| ≤ |d - u|) :
    |d| ≤ u / 2 := by
  rcases abs_cases d with ⟨hd, hsign⟩ | ⟨hd, hsign⟩
  · rcases abs_cases (d - u) with ⟨hstep, -⟩ | ⟨hstep, -⟩ <;> linarith
  · rcases abs_cases (d + u) with ⟨hstep, -⟩ | ⟨hstep, -⟩ <;> linarith

/-- Another multiple is at least a step away. -/
theorem sub_abs_le_of_ne (hc : 0 < c) {j k : ℤ} (hne : j ≠ k) (q : ℚ) :
    1 / c - |k / c - q| ≤ |j / c - q| := by
  have hone : (1 : ℚ) ≤ |(j : ℚ) - k| := by
    exact_mod_cast Int.one_le_abs (sub_ne_zero.2 hne)
  have hstep : 1 / c ≤ |j / c - k / c| := by
    rw [← sub_div, abs_div, abs_of_pos hc]
    exact div_le_div_of_nonneg_right hone hc.le
  have htriangle := abs_sub_le (j / c : ℚ) q (k / c)
  rw [abs_sub_comm q] at htriangle
  linarith

end Spacing

section Rounding

variable {num den : Nat}

/-- The rounded quotient lies within one half of the exact one, and it is even where it is one half
away. -/
theorem roundHalfEven_near (num : Nat) (hden : 0 < den) :
    2 * num ≤ (2 * roundHalfEven num den + 1) * den ∧
      2 * roundHalfEven num den * den ≤ 2 * num + den ∧
      (2 * num = (2 * roundHalfEven num den + 1) * den ∨
        2 * roundHalfEven num den * den = 2 * num + den → Even (roundHalfEven num den)) := by
  have hparts := Nat.div_add_mod num den
  have hrest := Nat.mod_lt num hden
  simp only [roundHalfEven]
  generalize num / den = q at *
  generalize num % den = r at *
  subst hparts
  split
  · refine ⟨by linarith, by linarith, fun htie => ?_⟩
    rcases htie with htie | htie <;> exfalso <;> linarith
  · split
    · refine ⟨by linarith, by linarith, fun htie => ?_⟩
      rcases htie with htie | htie <;> exfalso <;> linarith
    · rcases Nat.mod_two_eq_zero_or_one q with heven | hodd
      · rw [heven]
        exact ⟨by linarith, by linarith, fun _ => Nat.even_iff.2 heven⟩
      · rw [hodd]
        exact ⟨by linarith, by linarith, fun _ => Nat.even_iff.2 (by omega)⟩

theorem abs_roundHalfEven_sub_le (num : Nat) (hden : 0 < den) :
    |(roundHalfEven num den : ℚ) - num / den| ≤ 1 / 2 := by
  obtain ⟨hbelow, habove, -⟩ := roundHalfEven_near num hden
  have hden' : (0 : ℚ) < den := Nat.cast_pos.2 hden
  have hbelow' : 2 * (num : ℚ) ≤ (2 * roundHalfEven num den + 1) * den := by exact_mod_cast hbelow
  have habove' : 2 * (roundHalfEven num den : ℚ) * den ≤ 2 * num + den := by exact_mod_cast habove
  rw [abs_sub_comm, abs_div_sub hden', div_le_iff₀ hden', abs_le]
  constructor <;> linarith

theorem even_roundHalfEven (hden : 0 < den)
    (htie : |(roundHalfEven num den : ℚ) - num / den| = 1 / 2) : Even (roundHalfEven num den) := by
  have hden' : (0 : ℚ) < den := Nat.cast_pos.2 hden
  refine (roundHalfEven_near num hden).2.2 ?_
  rw [abs_sub_comm, abs_div_sub hden', div_eq_iff hden'.ne', abs_eq (by linarith)] at htie
  rcases htie with habove | hbelow
  · left
    have hcast : 2 * (num : ℚ) = (2 * roundHalfEven num den + 1) * den := by linarith
    exact_mod_cast hcast
  · right
    have hcast : 2 * (roundHalfEven num den : ℚ) * den = 2 * num + den := by linarith
    exact_mod_cast hcast

end Rounding

section Nearest

variable {places : Nat} {j k : ℤ} {q r : ℚ}

/-- The nearest multiple is within half of the last place, and it is even where it is no nearer. -/
theorem isNearest_iff : IsNearest places k q ↔
    |(k : ℚ) / 10 ^ places - q| ≤ 1 / 10 ^ places / 2 ∧
      (|(k : ℚ) / 10 ^ places - q| = 1 / 10 ^ places / 2 → Even k) := by
  have hten : (0 : ℚ) < 10 ^ places := by positivity
  constructor
  · intro h
    have hstep : (0 : ℚ) < 1 / 10 ^ places := one_div_pos.2 hten
    have hnext : ((k + 1 : ℤ) : ℚ) / 10 ^ places - q =
        k / 10 ^ places - q + 1 / 10 ^ places := by push_cast; ring
    have hprevious : ((k - 1 : ℤ) : ℚ) / 10 ^ places - q =
        k / 10 ^ places - q - 1 / 10 ^ places := by push_cast; ring
    refine ⟨abs_le_half_of_steps hstep ?_ ?_, fun htie => ?_⟩
    · exact hnext ▸ h.nearest (k + 1)
    · exact hprevious ▸ h.nearest (k - 1)
    · -- the neighbour on the other side is equally near
      rcases (abs_eq (by positivity)).1 htie with hbelow | habove
      · refine h.even_of_tie (k - 1) (by omega) ?_
        rw [hprevious, hbelow, half_sub, abs_neg]
      · refine h.even_of_tie (k + 1) (by omega) ?_
        rw [hnext, habove, abs_neg, neg_add_eq_sub, sub_half]
  · rintro ⟨hwithin, heven⟩
    constructor
    case nearest =>
      intro j
      by_cases hsame : j = k
      · rw [hsame]
      · linarith [sub_abs_le_of_ne hten hsame q]
    case even_of_tie =>
      intro j hne htie
      exact heven (le_antisymm hwithin (by linarith [sub_abs_le_of_ne hten hne q]))

/-- There is one nearest multiple. -/
theorem IsNearest.unique (hk : IsNearest places k q) (hj : IsNearest places j q) : k = j := by
  have hten : (0 : ℚ) < 10 ^ places := by positivity
  have hclose : |(k : ℚ) - j| ≤ 1 := by
    have hboth := abs_sub_le ((k : ℚ) / 10 ^ places) q (j / 10 ^ places)
    rw [abs_sub_comm q, ← sub_div, abs_div, abs_of_pos hten] at hboth
    have hwithin := add_le_add (isNearest_iff.1 hk).1 (isNearest_iff.1 hj).1
    rw [add_halves] at hwithin
    exact (div_le_div_iff_of_pos_right hten).1 (hboth.trans hwithin)
  by_contra hne
  have htie := le_antisymm (hk.nearest j) (hj.nearest k)
  -- both are even, so they are not next to one another
  obtain ⟨m, hm⟩ := hk.even_of_tie j (Ne.symm hne) htie
  obtain ⟨n, hn⟩ := hj.even_of_tie k hne htie.symm
  have hstep : |k - j| ≤ 1 := by exact_mod_cast hclose
  rw [abs_le] at hstep
  omega

/-- A multiple is nearest to itself. -/
theorem isNearest_self (places : Nat) (k : ℤ) : IsNearest places k (k / 10 ^ places) := by
  rw [isNearest_iff, sub_self, abs_zero]
  exact ⟨by positivity, fun htie => absurd htie (by positivity)⟩

theorem IsNearest.neg (h : IsNearest places k q) : IsNearest places (-k) (-q) := by
  rw [isNearest_iff] at h ⊢
  rwa [Int.cast_neg, neg_div, ← neg_sub', abs_neg, even_neg]

/-- The nearest multiple to a value is so to any value that is not farther from it. -/
theorem IsNearest.of_closer (h : IsNearest places k q)
    (hcloser : |r - k / 10 ^ places| ≤ |q - k / 10 ^ places|) : IsNearest places k r := by
  rw [abs_sub_comm r, abs_sub_comm q] at hcloser
  rw [isNearest_iff] at h ⊢
  refine ⟨hcloser.trans h.1, fun htie => h.2 ?_⟩
  exact le_antisymm h.1 (htie ▸ hcloser)

end Nearest

/-- A quotient is rounded to the nearest multiple. -/
theorem isNearest_roundHalfEven (places num : Nat) {den : Nat} (hden : 0 < den) :
    IsNearest places (roundHalfEven (num * 10 ^ places) den) (num / den) := by
  have hten : (0 : ℚ) < 10 ^ places := by positivity
  have hscaled : (num : ℚ) / den * 10 ^ places = (num * 10 ^ places : Nat) / den := by
    rw [div_mul_eq_mul_div, Nat.cast_mul, Nat.cast_pow, Nat.cast_ofNat]
  rw [isNearest_iff, abs_div_sub hten, hscaled, div_right_comm, div_le_div_iff_of_pos_right hten,
    div_left_inj' hten.ne', Int.cast_natCast, Int.even_coe_nat]
  exact ⟨abs_roundHalfEven_sub_le _ hden, even_roundHalfEven hden⟩

theorem isNearest_signedCount (places m : Nat) {den : Nat} (hden : 0 < den) (s : Bool) :
    IsNearest places (Binary64.signedCount s (roundHalfEven (m * 10 ^ places) den))
      (Binary64.signedCount s m / den) := by
  have h := isNearest_roundHalfEven places m hden
  cases s with
  | false => exact h
  | true =>
      simp only [Binary64.signedCount, ↓reduceIte, Int.cast_neg, Int.cast_natCast, neg_div]
      exact h.neg

/-- The nearest multiple of the last place, in units of that place. -/
def nearestMultiple (places : Nat) (q : ℚ) : ℤ :=
  Binary64.signedCount (decide (q < 0)) (roundHalfEven (q.num.natAbs * 10 ^ places) q.den)

theorem isNearest_nearestMultiple (places : Nat) (q : ℚ) :
    IsNearest places (nearestMultiple places q) q := by
  have h := isNearest_signedCount places q.num.natAbs q.den_pos (decide (q.num < 0))
  rw [signedCount_natAbs, Rat.num_div_den] at h
  simp only [Rat.num_neg] at h
  exact h

section Counts

variable {num den : Nat}

/-- No multiple of what the last of 53 bits stands for is nearer than the rounded quotient. -/
theorem abs_roundCount_sub_le_multiple (num : Nat) (hden : 0 < den) (j : Nat) :
    |(roundCount num den : ℚ) - num / den| ≤
      |((j * 2 ^ droppedBits num den : Nat) : ℚ) - num / den| := by
  rw [roundCount, Nat.pow_eq]
  generalize droppedBits num den = d
  have hpow : (0 : ℚ) < 2 ^ d := by positivity
  have hnear := (isNearest_roundHalfEven 0 num (Nat.mul_pos hden (Nat.two_pow_pos d))).nearest j
  simp only [pow_zero, Nat.mul_one, div_one, Int.cast_natCast] at hnear
  have hsteps : ∀ n : Nat, |((n * 2 ^ d : Nat) : ℚ) - num / den| =
      |(n : ℚ) - num / (den * 2 ^ d : Nat)| * 2 ^ d := by
    intro n
    rw [abs_sub_comm (n : ℚ), Nat.cast_mul, Nat.cast_mul, Nat.cast_pow, Nat.cast_ofNat, ← div_div,
      abs_div_sub hpow, div_mul_cancel₀ _ hpow.ne', abs_sub_comm]
  rw [hsteps, hsteps]
  exact mul_le_mul_of_nonneg_right hnear hpow.le

/-- A quotient is rounded to the nearest count. -/
theorem abs_roundCount_sub_le {c : Nat} (hc : IsCount c) (num : Nat) (hden : 0 < den) :
    |(roundCount num den : ℚ) - num / den| ≤ |(c : ℚ) - num / den| := by
  have hmultiple := abs_roundCount_sub_le_multiple num hden
  by_cases hdvd : 2 ^ droppedBits num den ∣ c
  · obtain ⟨j, rfl⟩ := hdvd
    rw [Nat.mul_comm]
    exact hmultiple j
  · -- a power of two that is a count of as many bits as the quotient lies between the two
    have hbits : c.log2 - 52 < droppedBits num den :=
      not_le.1 fun hle => hdvd ((Nat.pow_dvd_pow 2 hle).trans hc.1)
    have hquotient : (num / den).log2 = 52 + droppedBits num den := by
      rw [droppedBits] at hbits ⊢
      omega
    have hnonzero : num / den ≠ 0 := by
      intro hzero
      rw [hzero, Nat.log2_zero] at hquotient
      omega
    have hbelow : c ≤ 2 ^ 52 * 2 ^ droppedBits num den := by
      rw [← pow_add]
      exact Nat.lt_log2_self.le.trans (Nat.pow_le_pow_right Nat.two_pos (by omega))
    have habove : 2 ^ 52 * 2 ^ droppedBits num den * den ≤ num := by
      rw [← Nat.le_div_iff_mul_le hden, ← pow_add, ← hquotient]
      exact Nat.log2_self_le hnonzero
    have hlead := hmultiple (2 ^ 52)
    generalize 2 ^ 52 * 2 ^ droppedBits num den = power at hbelow habove hlead
    have hcount : (c : ℚ) ≤ power := Nat.cast_le.2 hbelow
    have hexact : (power : ℚ) ≤ num / den := by
      rw [le_div_iff₀ (Nat.cast_pos.2 hden)]
      exact_mod_cast habove
    rw [abs_of_nonpos (sub_nonpos.2 hexact)] at hlead
    rw [abs_of_nonpos (sub_nonpos.2 (hcount.trans hexact))]
    linarith

end Counts

end Montage
