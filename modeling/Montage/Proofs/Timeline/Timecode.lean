import Montage.Proofs.Number.AtMost
import Montage.Timeline.Timecode

/-!
Times that have a timecode.

Every finite binary64 value has one, for its minutes have few digits.  A whole number has one unless
its minutes have more digits than are written.
-/

namespace Montage

/-- Why a number has no timecode: it is not finite, so that dividing it leaves nothing to cut, or it
is a whole number with too many minutes. -/
inductive Number.Untimed : Number → Fault → Prop where
  | notFinite {x : Binary64} (h : x.isFinite = false) : Untimed (.float x) .nanToInteger
  | tooLong {n : Int} (h : Nat.pow 10 Fault.digitLimit ≤ (n / 60000).natAbs) :
      Untimed (.int n) .digitsWritten

theorem timecode_eq (a : Number) : timecode a = (do
    let total ← (a.floorDivMod 1000).1.truncate
    let hundredths ← ((a.floorDivMod 1000).2.floorDivMod 10).1.truncate
    return (← writtenInteger (total.fdiv 60)) ++ ":" ++ twoDigits (total.fmod 60) ++ "."
      ++ twoDigits hundredths) := rfl

section Integers

variable {n : Int}

theorem writtenInteger_of_lt (h : n.natAbs < Nat.pow 10 Fault.digitLimit) :
    writtenInteger n = .ok (integerText n) :=
  if_neg (not_le.2 h)

theorem writtenInteger_of_le (h : Nat.pow 10 Fault.digitLimit ≤ n.natAbs) :
    writtenInteger n = .error .digitsWritten :=
  if_pos h

theorem fdiv_minutes (n : Int) : (n.fdiv 1000).fdiv 60 = n / 60000 := by
  rw [Int.fdiv_eq_ediv_of_nonneg _ (by decide), Int.fdiv_eq_ediv_of_nonneg _ (by decide),
    Int.ediv_ediv_of_nonneg (by decide)]
  rfl

/-- The timecode of a whole number fails only where its minutes are written. -/
theorem timecode_int (n : Int) : timecode (.int n) = (do
    return (← writtenInteger (n / 60000)) ++ ":" ++ twoDigits ((n.fdiv 1000).fmod 60) ++ "."
      ++ twoDigits ((n.fmod 1000).fdiv 10)) := by
  have hseconds : ((Number.int n).floorDivMod 1000).1.truncate = .ok (n.fdiv 1000) := rfl
  have htenths : (((Number.int n).floorDivMod 1000).2.floorDivMod 10).1.truncate =
      .ok ((n.fmod 1000).fdiv 10) := rfl
  rw [← fdiv_minutes, timecode_eq, hseconds, htenths]
  simp only [bind, Except.bind]

theorem timecode_int_eq_error_iff {f : Fault} :
    timecode (.int n) = .error f ↔ (Number.int n).Untimed f := by
  rw [timecode_int]
  constructor
  · intro h
    rcases lt_or_ge (n / 60000).natAbs (Nat.pow 10 Fault.digitLimit) with hlt | hge
    · rw [writtenInteger_of_lt hlt] at h
      exact nomatch h
    · rw [writtenInteger_of_le hge] at h
      obtain rfl := Except.error.inj h
      exact .tooLong hge
  · rintro (_ | h)
    rw [writtenInteger_of_le h]
    rfl

end Integers

section Values

variable {x : Binary64}

/-- Whole numbers within the range of binary64 have few digits. -/
theorem two_pow_lt_digitLimit {k : Nat} (hk : k ≤ 1024) : 2 ^ k < Nat.pow 10 Fault.digitLimit := by
  have hpow : ∀ {e}, k ≤ e → 2 ^ k ≤ Nat.pow 2 e := Nat.pow_le_pow_right Nat.two_pos
  exact Nat.lt_of_le_of_lt (hpow hk) (by decide +kernel)

theorem exists_timecode_of_isFinite (hx : x.isFinite = true) :
    ∃ text, timecode (.float x) = .ok text := by
  have hthousand : IsCount (1000 * unitsInOne) := by decide +kernel
  have hten : IsCount (10 * unitsInOne) := by decide +kernel
  have hvalue : ∀ d : Nat, IsCount (d * unitsInOne) →
      (Number.float (Binary64.ofInt d)).AtMost d := by
    intro d hd
    rw [Binary64.ofInt_natCast hd]
    exact Binary64.atMost_finite _ _ le_rfl
  have hseconds : ((Number.float x).floorDivMod 1000).1.AtMost (2 ^ (1015 + 3)) :=
    Number.atMost_quotient (by decide) (Binary64.atMost_div_of_isFinite hthousand (by decide)
      (Binary64.isFinite_sub_remainder hthousand (by decide) hx))
  have hrest : ((Number.float x).floorDivMod 1000).2.AtMost (2 ^ (10 + 1)) :=
    Number.atMost_rest (by decide)
      ((Binary64.atMost_remainder_of_isFinite hthousand (by decide) hx).mono (by decide))
      ((hvalue 1000 hthousand).mono (by decide))
  obtain ⟨y, hy⟩ : ∃ y, ((Number.float x).floorDivMod 1000).2 = .float y := ⟨_, rfl⟩
  rw [hy] at hrest
  have htenths : ((Number.float y).floorDivMod 10).1.AtMost (2 ^ (10 + 1 + 1 + 3)) :=
    Number.atMost_quotient (by decide) (Binary64.atMost_div_ofInt hten (by decide) (by decide)
      (Binary64.atMost_sub (by decide) hrest
        (Binary64.atMost_remainder_ofInt hten (by decide) (by decide) hrest)))
  obtain ⟨total, htotal, hsize⟩ := hseconds.exists_truncate
  obtain ⟨hundredths, hhundredths, -⟩ := htenths.exists_truncate
  have hminutes : (total.fdiv 60).natAbs < Nat.pow 10 Fault.digitLimit := by
    rw [Int.fdiv_eq_ediv_of_nonneg _ (by decide)]
    exact ((Int.natAbs_ediv_le_natAbs total 60).trans hsize).trans_lt
      (two_pow_lt_digitLimit (by decide))
  rw [timecode_eq, hy]
  exact exists_bind htotal (exists_bind hhundredths
    (exists_bind (writtenInteger_of_lt hminutes) ⟨_, rfl⟩))

/-- Dividing what is not finite gives a NaN. -/
theorem floorDivMod_of_not_isFinite (hx : x.isFinite = false) (d : Nat) :
    ((Number.float x).floorDivMod d).1 = .float .nan := by
  have hremainder : ∀ y, x.remainder y = .nan := by
    intro y
    cases x with
    | nan => rfl
    | infinity s => cases y <;> rfl
    | finite s m hm => exact nomatch hx
  have hsub : x.sub .nan = .nan := by
    cases x with
    | nan => rfl
    | infinity s => rfl
    | finite s m hm => rfl
  have hquotient : ∀ y, Binary64.nan.div y = .nan ∧ Binary64.nan.sub y = .nan ∧
      Binary64.nan.add y = .nan := fun _ => ⟨rfl, rfl, rfl⟩
  have hfloor : Binary64.nan.floor = .nan := rfl
  simp only [Number.floorDivMod, hremainder, hsub, hquotient, hfloor, ite_self]

theorem timecode_of_not_isFinite (hx : x.isFinite = false) :
    timecode (.float x) = .error .nanToInteger := by
  rw [timecode_eq, floorDivMod_of_not_isFinite hx]
  rfl

end Values

/-- A number has a timecode unless it is not finite or has too many minutes. -/
theorem timecode_eq_error_iff {a : Number} {f : Fault} :
    timecode a = .error f ↔ a.Untimed f := by
  cases a with
  | int n => exact timecode_int_eq_error_iff
  | float x =>
      cases hx : x.isFinite with
      | true =>
          obtain ⟨text, htext⟩ := exists_timecode_of_isFinite hx
          rw [htext]
          refine ⟨nofun, ?_⟩
          rintro (h | _)
          rw [hx] at h
          exact absurd h (by decide)
      | false =>
          rw [timecode_of_not_isFinite hx]
          refine ⟨fun h => ?_, fun h => ?_⟩
          · obtain rfl := Except.error.inj h
            exact .notFinite hx
          · cases h
            rfl

theorem exists_timecode {a : Number} {k : Nat} (hk : k ≤ Number.greatestExponent)
    (h : a.AtMost (2 ^ k)) : ∃ text, timecode a = .ok text := by
  cases a with
  | float x =>
      obtain ⟨s, m, hm, rfl, -⟩ := Binary64.exists_finite h
      exact exists_timecode_of_isFinite rfl
  | int n =>
      have hminutes : (n / 60000).natAbs < Nat.pow 10 Fault.digitLimit :=
        ((Int.natAbs_ediv_le_natAbs n 60000).trans (Number.atMost_int.1 h)).trans_lt
          (two_pow_lt_digitLimit (hk.trans (by decide)))
      rw [timecode_int, writtenInteger_of_lt hminutes]
      exact ⟨_, rfl⟩

end Montage
