import Montage.Proofs.Export.Tempo
import Montage.Proofs.Number.Decimal
import Montage.Snapshot.Reading

/-!
The tempo that is printed for a speed.

The printed factors differ from the speed in two ways.  What remains of the speed is rounded to
thousandths, which costs at most half of one where it is at least one half.  And it is left out when
it is within a thousandth of one, which may cost a little more than a thousandth of the speed.
-/

namespace Montage

/-- A stage is written as a tempo with this factor. -/
def Stage.PrintsTempo (st : Stage) (q : ℚ) : Prop :=
  ∃ text, st.render = .ok ("atempo=" ++ text) ∧ Text.decimalValue? text.toList = some q

/-- Factors within a thousandth below one that are more than a thousandth of themselves away. -/
def NarrowlyBelowOne (q : ℚ) : Prop := 999 / 1000 ≤ q ∧ q < 1000 / 1001

section Speeds

variable {v : Number}

/-- The speeds that are admitted, as counts of units. -/
theorem exists_units_of_speed (hslow : Reading.slowest.le v = true)
    (hfast : v.le Reading.fastest = true) :
    ∃ k, ∃ hk : IsCount k, v.toBinary64 = .ok (.finite false k hk) ∧ v.value = k / unitsInOne ∧
      unitsInOne ≤ 4 * k ∧ k ≤ 4 * unitsInOne := by
  have hquarter : unitsInOne = 4 * 2 ^ 1072 := by decide +kernel
  have hbounds : Reading.slowest.place? = some (.point ((2 ^ 1072 : Nat) : Int)) ∧
      Reading.fastest.place? = some (.point ((4 * unitsInOne : Nat) : Int)) := by
    decide +kernel
  obtain ⟨_, p, hp, hv, hlow⟩ := Number.exists_places_of_le hslow
  obtain rfl := Option.some.inj (hbounds.1.symm.trans hp)
  rw [Number.le_iff hv hbounds.2] at hfast
  obtain ⟨n, rfl, hlow, hhigh⟩ := Place.exists_point hlow hfast
  have hsize : v.AtMost 4 := ⟨n, hv, by omega⟩
  obtain ⟨x, hx, hplace⟩ := (hsize.mono (by decide)).isExact
  rw [hv] at hplace
  have hfinite : x.isFinite = true := Number.isFinite_float.1 ⟨_, n, hplace, rfl⟩
  have hpos : Number.lt 0 (.float x) = true := by
    rw [Number.lt_iff Number.place?_zero hplace, Place.point_lt_point]
    exact lt_of_lt_of_le (by positivity) hlow
  obtain ⟨k, hk, -, hkx⟩ := exists_positive hfinite hpos
  obtain rfl : Binary64.finite false k hk = x := (Number.float.inj hkx).symm
  obtain rfl : (k : Int) = n := Place.point.inj (Option.some.inj hplace)
  refine ⟨k, hk, hx, Number.value_of_place? hv, ?_, ?_⟩
  · rw [hquarter]
    exact Nat.mul_le_mul_left 4 (by exact_mod_cast hlow)
  · exact_mod_cast hhigh

/-- The loops of an admitted speed have one round at most. -/
theorem exists_reduces_of_speed {k : Nat} (hk : IsCount k) (hlow : unitsInOne ≤ 4 * k)
    (hhigh : k ≤ 4 * unitsInOne) :
    ∃ halves doubles between m, ∃ hm : IsCount m,
      Reduces (.ofUnits k hk) (k / unitsInOne) halves doubles between (.ofUnits m hm) ∧
        (m = 2 * k ∧ m < unitsInOne ∨ m = k ∨ k = 2 * m ∧ unitsInOne < m) := by
  have htwo := unitsInOne_eq_two_mul
  have henough : 0 ≤ tempoFuel ∧ 1 ≤ tempoFuel := by decide
  by_cases hslow : k < unitsInHalf
  · have hrange : unitsInOne < unitsLimit := by decide +kernel
    have hdouble : IsCount (2 * k) := hk.double (by omega)
    have hraised := (raises_zero hdouble (by omega)).again hk hslow
    have hlowered := lowers_zero hdouble (by omega)
    exact ⟨_, _, _, _, _, hraised.reduces hlowered ⟨henough.2, henough.1⟩, .inl ⟨rfl, by omega⟩⟩
  · have hraised := raises_zero hk (not_lt.1 hslow)
    by_cases hfast : 2 * unitsInOne < k
    · have hlarge : 2 ^ 53 ≤ 2 * unitsInOne := by decide +kernel
      obtain ⟨m, hm, rfl⟩ := hk.half (hlarge.trans hfast.le)
      have hlowered := (lowers_zero hm (by omega)).again hm hk (by omega)
      exact ⟨_, _, _, _, _, hraised.reduces hlowered henough, .inr (.inr ⟨rfl, by omega⟩)⟩
    · have hlowered := lowers_zero hk (not_lt.1 hfast)
      exact ⟨_, _, _, _, _, hraised.reduces hlowered ⟨henough.1, henough.1⟩, .inr (.inl rfl)⟩

end Speeds

section Bounds

variable {w r s q : ℚ}

/-- Rounding what remains to thousandths costs at most a thousandth of the whole. -/
theorem abs_emitted_le (hw : 0 < w) (hr : 1 / 2 ≤ r) (hs : |s - r| ≤ 1 / 2000) :
    |w * s - w * r| ≤ 1 / 1000 * (w * r) := by
  calc |w * s - w * r| = w * |s - r| := by rw [← mul_sub, abs_mul, abs_of_pos hw]
    _ ≤ w * (1 / 1000 * r) := mul_le_mul_of_nonneg_left (by linarith) hw.le
    _ = 1 / 1000 * (w * r) := by ring

/-- Leaving out what remains costs at most a thousandth of the factors that stay. -/
theorem abs_leftOut_eq (hw : 0 < w) : |w - w * r| = w * |r - 1| := by
  rw [abs_sub_comm r, ← abs_of_pos hw, ← abs_mul, abs_of_pos hw, mul_sub, mul_one]

theorem abs_leftOut_le_iff (hw : 0 < w) (hr : |r - 1| ≤ 1 / 1000) :
    |w - w * r| ≤ 1 / 1000 * (w * r) ↔ ¬NarrowlyBelowOne r := by
  obtain ⟨hleast, hmost⟩ := abs_le.1 hr
  have hscale : 1 / 1000 * (w * r) = w * (1 / 1000 * r) := by ring
  rw [abs_leftOut_eq hw, hscale, mul_le_mul_iff_right₀ hw, abs_le, NarrowlyBelowOne, not_and,
    not_lt]
  constructor
  · intro h _
    linarith [h.1]
  · intro h
    have hbelow := h (by linarith)
    constructor <;> linarith

theorem NarrowlyBelowOne.abs_sub_one_le (h : NarrowlyBelowOne r) : |r - 1| ≤ 1 / 1000 := by
  obtain ⟨hleast, hmost⟩ := h
  rw [abs_le]
  constructor <;> linarith

/-- Only what remains of a speed of about one or one half is narrowly below one. -/
theorem narrowlyBelowOne_iff (hr : 1 / 2 ≤ r) (h : r = 2 * q ∧ r < 1 ∨ r = q ∨ q = 2 * r ∧ 1 < r) :
    NarrowlyBelowOne r ↔ NarrowlyBelowOne q ∨ NarrowlyBelowOne (2 * q) := by
  simp only [NarrowlyBelowOne]
  rcases h with ⟨rfl, hlow⟩ | rfl | ⟨rfl, hhigh⟩
  · constructor
    · exact Or.inr
    · rintro (⟨hleast, -⟩ | hnear)
      · linarith
      · exact hnear
  · constructor
    · exact Or.inl
    · rintro (hnear | ⟨-, hmost⟩)
      · exact hnear
      · linarith
  · constructor
    · rintro ⟨-, hmost⟩
      linarith
    · rintro (⟨-, hmost⟩ | ⟨-, hmost⟩) <;> linarith

end Bounds

section Printing

variable {f : Number} {x : Binary64}

theorem Stage.printsTempo (hx : f.toBinary64 = .ok x) (hfinite : x.isFinite = true) :
    (Stage.tempo f).PrintsTempo (x.rounded 3) := by
  refine ⟨x.trimmed 3, ?_, Binary64.decimalValue?_trimmed hfinite 3⟩
  have htext : f.trimmed 3 = .ok (x.trimmed 3) := by
    rw [Number.trimmed, hx]
    rfl
  have hjoin : "atempo" ++ ("=" ++ x.trimmed 3) = "atempo=" ++ x.trimmed 3 := by
    rw [← String.append_assoc]
    rfl
  rw [render, arguments, htext, ← hjoin]
  rfl

/-- Whole stages are written as they are. -/
theorem printsTempo_wholeStages (halves doubles : Nat) :
    List.Forall₂ Stage.PrintsTempo ((wholeStages halves doubles).map Stage.tempo)
      ((wholeStages halves doubles).map Number.value) := by
  have hhalf : (Binary64.finite false unitsInHalf isCount_half).rounded 3 = 1 / 2 := by
    rw [Binary64.rounded_of_eq (by decide +kernel : roundHalfEven _ _ = 500)]
    norm_num
  have htwo : (Binary64.finite false (2 * unitsInOne) isCount_two).rounded 3 = 2 := by
    rw [Binary64.rounded_of_eq (by decide +kernel : roundHalfEven _ _ = 2000)]
    norm_num
  rw [List.forall₂_map_left_iff, List.forall₂_map_right_iff, List.forall₂_same]
  intro f hf
  rcases List.mem_append.1 hf with hleast | hmost
  · rw [List.eq_of_mem_replicate hleast, value_tempoLeast, tempoLeast_eq, ← hhalf]
    exact Stage.printsTempo rfl rfl
  · rw [List.eq_of_mem_replicate hmost, value_tempoMost, tempoMost_eq, ← htwo]
    exact Stage.printsTempo rfl rfl

/-- What remains is written with its rounded value. -/
theorem printsTempo_emitted {m : Nat} (hm : IsCount m) (halves doubles : Nat) :
    List.Forall₂ Stage.PrintsTempo
      ((wholeStages halves doubles ++ [Number.ofUnits m hm]).map Stage.tempo)
      ((wholeStages halves doubles).map Number.value ++
        [(Binary64.finite false m hm).rounded 3]) := by
  rw [List.map_append, List.map_singleton]
  exact List.rel_append (printsTempo_wholeStages halves doubles)
    (.cons (Stage.printsTempo rfl rfl) .nil)

/-- The factors that are printed for whole stages and what remains after them. -/
theorem exists_printed_of_residue {m : Nat} (hm : IsCount m)
    (hleast : 1 / 2 ≤ (Number.ofUnits m hm).value) (halves doubles : Nat) :
    let w : ℚ := (1 / 2) ^ halves * 2 ^ doubles
    let r := (Number.ofUnits m hm).value
    ∃ factors : List ℚ,
      List.Forall₂ Stage.PrintsTempo ((if 1 / 1000 < |r - 1| then
        wholeStages halves doubles ++ [.ofUnits m hm] else wholeStages halves doubles).map
          Stage.tempo) factors ∧
      (|factors.prod - w * r| ≤ 1 / 1000 * (w * r) ↔ ¬NarrowlyBelowOne r) ∧
      |factors.prod - w * r| ≤ 1 / 1000 * max factors.prod (w * r) := by
  intro w r
  have hw : 0 < w := by positivity
  by_cases hfar : 1 / 1000 < |r - 1|
  · rw [if_pos hfar]
    refine ⟨_, printsTempo_emitted hm halves doubles, ?_⟩
    rw [List.prod_append, prod_wholeStages, List.prod_singleton]
    have hbound := abs_emitted_le hw hleast
      ((Binary64.abs_rounded_sub_le (x := .finite false m hm) rfl 3).trans (by norm_num))
    refine ⟨iff_of_true hbound fun hnarrow => absurd hfar (not_lt.2 hnarrow.abs_sub_one_le),
      hbound.trans ?_⟩
    exact mul_le_mul_of_nonneg_left (le_max_right _ _) (by norm_num)
  · rw [if_neg hfar]
    have hnear := not_lt.1 hfar
    refine ⟨_, printsTempo_wholeStages halves doubles, ?_⟩
    rw [prod_wholeStages]
    refine ⟨abs_leftOut_le_iff hw hnear, ?_⟩
    calc |w - w * r| = w * |r - 1| := abs_leftOut_eq hw
      _ ≤ w * (1 / 1000) := mul_le_mul_of_nonneg_left hnear hw.le
      _ = 1 / 1000 * w := mul_comm _ _
      _ ≤ 1 / 1000 * max w (w * r) := mul_le_mul_of_nonneg_left (le_max_left _ _) (by norm_num)

end Printing

theorem tempoStages_of_units {v pitch : Number} {k : Nat} {hk : IsCount k}
    (hv : v.toBinary64 = .ok (.finite false k hk)) (hpos : 0 < v.value)
    (hpitch : pitch.isZero = true) (sampleRate : Document) :
    tempoStages (some v) (some pitch) sampleRate =
      (tempoFactors (.ofUnits k hk)).map (List.map Stage.tempo) := by
  have hone : IsCount (1 * unitsInOne) := by decide +kernel
  have hdiv : v.div (.float (Binary64.ofInt 1)) = .ok (.ofUnits k hk) := by
    have hof : Binary64.ofInt 1 = .finite false (1 * unitsInOne) hone := Binary64.ofInt_natCast hone
    rw [hof]
    exact Number.div_ofUnits hv (by rw [Nat.one_mul]; exact unitsInOne_pos) hk
      (by rw [Nat.one_mul])
  have hzero : v.isZero = false := by
    rw [Bool.eq_false_iff]
    intro hzero
    have hvalue : v.value = 0 := (Number.value_eq_of_eq hzero).trans Int.cast_zero
    exact hpos.ne' hvalue
  rw [tempoStages_of_pitch_zero hpitch, Option.filter_some, hzero, Bool.not_false, if_pos rfl,
    Option.getD_some, hdiv]
  simp only [bind, Except.bind, tempoChain]
  cases tempoFactors (.ofUnits k hk) <;> rfl

/-- The tempo that is printed for an admitted speed is within a thousandth of the speed, unless the
speed or twice the speed lies so narrowly below one that the stage for it is left out.  In any case
it is within a thousandth of the speed or of itself. -/
theorem exists_printedTempo {v pitch : Number} (hslow : Reading.slowest.le v = true)
    (hfast : v.le Reading.fastest = true) (hpitch : pitch.isZero = true) (sampleRate : Document) :
    ∃ stages factors, tempoStages (some v) (some pitch) sampleRate = .ok stages ∧
      List.Forall₂ Stage.PrintsTempo stages factors ∧
      (|factors.prod - v.value| ≤ 1 / 1000 * v.value ↔
        ¬(NarrowlyBelowOne v.value ∨ NarrowlyBelowOne (2 * v.value))) ∧
      |factors.prod - v.value| ≤ 1 / 1000 * max factors.prod v.value := by
  have hunits : (0 : ℚ) < unitsInOne := Nat.cast_pos.2 unitsInOne_pos
  obtain ⟨k, hk, hv, hvalue, hleast, hmost⟩ := exists_units_of_speed hslow hfast
  obtain ⟨halves, doubles, between, m, hm, hreduces, hcases⟩ :=
    exists_reduces_of_speed hk hleast hmost
  have hproduct := hreduces.value
  rw [← hvalue] at hproduct
  have hr := hreduces.residue.least
  have hw : (0 : ℚ) < (1 / 2) ^ halves * 2 ^ doubles := by positivity
  have hspeed : 0 < v.value := by
    rw [← hproduct]
    exact mul_pos hw (by linarith)
  have hpos : Number.lt 0 (.ofUnits k hk) = true := by
    rw [hvalue, div_pos_iff_of_pos_right hunits] at hspeed
    rw [Number.lt_iff Number.place?_zero Number.place?_ofUnits, Place.point_lt_point]
    exact_mod_cast hspeed
  have hstages := tempoStages_of_units hv hspeed hpitch sampleRate
  rw [tempoFactors_of_reduces rfl rfl hpos hreduces] at hstages
  have hnarrow : NarrowlyBelowOne (Number.ofUnits m hm).value ↔
      NarrowlyBelowOne v.value ∨ NarrowlyBelowOne (2 * v.value) := by
    apply narrowlyBelowOne_iff hr
    rw [hvalue, Number.value_ofUnits, div_lt_one hunits, one_lt_div hunits, Nat.cast_lt,
      Nat.cast_lt]
    rcases hcases with ⟨rfl, hlow⟩ | rfl | ⟨rfl, hhigh⟩
    · exact .inl ⟨by rw [Nat.cast_mul, Nat.cast_two, mul_div_assoc], hlow⟩
    · exact .inr (.inl rfl)
    · exact .inr (.inr ⟨by rw [Nat.cast_mul, Nat.cast_two, mul_div_assoc], hhigh⟩)
  obtain ⟨factors, hprinted, hbounds⟩ := exists_printed_of_residue hm hr halves doubles
  rw [← hnarrow, ← hproduct]
  exact ⟨_, factors, hstages, hprinted, hbounds⟩

/-- A third of the speed, for which a half and two thirds are printed. -/
def thirdSpeed : Number := .float (Binary64.ofRatio false unitsInOne 3)

theorem exists_printedTempo_third :
    Reading.slowest.le thirdSpeed = true ∧ thirdSpeed.le Reading.fastest = true ∧
      Number.isZero 0 = true ∧
      ∃ stages factors, tempoStages (some thirdSpeed) (some 0) (.number 44100) = .ok stages ∧
        List.Forall₂ Stage.PrintsTempo stages factors ∧
        (|factors.prod - thirdSpeed.value| ≤ 1 / 1000 * thirdSpeed.value ↔
          ¬(NarrowlyBelowOne thirdSpeed.value ∨ NarrowlyBelowOne (2 * thirdSpeed.value))) ∧
        |factors.prod - thirdSpeed.value| ≤ 1 / 1000 * max factors.prod thirdSpeed.value := by
  have hslow : Reading.slowest.le thirdSpeed = true := by decide +kernel
  have hfast : thirdSpeed.le Reading.fastest = true := by decide +kernel
  have hpitch : Number.isZero 0 = true := by decide +kernel
  exact ⟨hslow, hfast, hpitch, exists_printedTempo hslow hfast hpitch _⟩

/-- A speed that is narrowly below one, of 0.9990005. -/
def narrowSpeed : Number := .float (Binary64.ofRatio false (9990005 * unitsInOne) 10000000)

/-- Nothing is printed for this speed, and one is more than a thousandth of it away. -/
theorem tempoStages_narrowSpeed :
    Reading.slowest.le narrowSpeed = true ∧ narrowSpeed.le Reading.fastest = true ∧
      tempoStages (some narrowSpeed) (some 0) (.number 44100) = .ok [] ∧
      ¬|([] : List ℚ).prod - narrowSpeed.value| ≤ 1 / 1000 * narrowSpeed.value := by
  have hstages : (tempoStages (some narrowSpeed) (some 0) (.number 44100)).map List.isEmpty =
      .ok true := by
    decide +kernel
  obtain ⟨stages, hstages, hempty⟩ := exists_of_map_eq_ok hstages
  rw [List.isEmpty_iff.1 hempty] at hstages
  refine ⟨by decide +kernel, by decide +kernel, hstages, ?_⟩
  have hrange : roundCount (9990005 * unitsInOne) 10000000 < unitsLimit := by decide +kernel
  have hnarrow : 1001 * roundCount (9990005 * unitsInOne) 10000000 < 1000 * unitsInOne := by
    decide +kernel
  have hunits : (0 : ℚ) < unitsInOne := Nat.cast_pos.2 unitsInOne_pos
  have hvalue : narrowSpeed.value =
      (roundCount (9990005 * unitsInOne) 10000000 : ℚ) / unitsInOne := by
    rw [narrowSpeed, Binary64.ofRatio, dif_pos hrange]
    exact Number.value_ofUnits
  generalize roundCount (9990005 * unitsInOne) 10000000 = n at hnarrow hvalue
  have hbelow : narrowSpeed.value < 1000 / 1001 := by
    have hcast : (1001 : ℚ) * n < 1000 * unitsInOne := by exact_mod_cast hnarrow
    rw [hvalue, div_lt_iff₀ hunits]
    linarith
  rw [List.prod_nil, not_le]
  calc 1 / 1000 * narrowSpeed.value < 1 - narrowSpeed.value := by linarith
    _ ≤ |1 - narrowSpeed.value| := le_abs_self _

end Montage
