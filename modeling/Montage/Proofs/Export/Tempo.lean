import Mathlib.Algebra.BigOperators.Group.List.Basic
import Mathlib.Algebra.Order.AbsoluteValue.Basic
import Montage.Export.Tempo
import Montage.Proofs.Export.Neutral
import Montage.Proofs.Number.Doubling
import Montage.Proofs.Timeline.Source

/-!
The factors of a tempo.

A tempo below one half is doubled until it no longer is, one above two is halved.  Nothing is
rounded on the way, so that the factors with what remains give the tempo itself; and what remains
is so near to one that the distance is exact as well.
-/

namespace Montage

/-- A loop that divides by `step` for as long as `outside` holds: it ends after so many rounds,
with this as what remains. -/
inductive DividesOut (outside : Number → Bool) (step : Number) :
    Number → Nat → Number → Prop
  | done {rest : Number} (hinside : outside rest = false) : DividesOut outside step rest 0 rest
  | again {rest next last : Number} {rounds : Nat} (houtside : outside rest = true)
      (hnext : rest.div step = .ok next) (hlast : DividesOut outside step next rounds last) :
      DividesOut outside step rest (rounds + 1) last

namespace DividesOut

variable {outside : Number → Bool} {step rest last : Number} {rounds : Nat}

/-- A loop that ends is run to its end by as many steps. -/
theorem divideOut_eq (h : DividesOut outside step rest rounds last) {fuel : Nat}
    (hfuel : rounds ≤ fuel) : divideOut outside step fuel rest = .ok (rounds, last) := by
  induction h generalizing fuel with
  | @done rest hinside =>
      cases fuel with
      | zero => rfl
      | succ fuel =>
          rw [divideOut, hinside]
          rfl
  | @again rest next last rounds houtside hnext _ ih =>
      cases fuel with
      | zero => exact absurd hfuel (Nat.not_succ_le_zero rounds)
      | succ fuel =>
          have hrest := ih (Nat.le_of_succ_le_succ hfuel)
          rw [divideOut, if_pos houtside, hnext]
          simp only [bind, Except.bind, hrest]
          rfl

theorem eq_of_inside (h : DividesOut outside step rest rounds last)
    (hinside : outside rest = false) : rounds = 0 ∧ last = rest := by
  cases h with
  | done => exact ⟨rfl, rfl⟩
  | again houtside => exact absurd houtside (Bool.eq_false_iff.1 hinside)

/-- A number that is outside and its binary64 value have the same quotients, hence the same run. -/
theorem of_toBinary64 {x y : Binary64} (hx : rest.toBinary64 = .ok x)
    (houtside : outside rest = true) (hvalue : outside (.float x) = true)
    (h : DividesOut outside (.float y) (.float x) rounds last) :
    DividesOut outside (.float y) rest rounds last := by
  cases h with
  | done hinside => exact absurd hvalue (Bool.eq_false_iff.1 hinside)
  | again _ hnext hlast =>
      apply again houtside _ hlast
      rw [Number.div_float_eq, hx]
      exact hnext

end DividesOut

/-- One half is `2 ^ halfExponent` units. -/
def halfExponent : Nat := 1073

/-- The number of units in one half. -/
def unitsInHalf : Nat := 2 ^ halfExponent

theorem unitsInOne_eq_two_mul : unitsInOne = 2 * unitsInHalf := by decide +kernel

theorem unitsInHalf_pos : 0 < unitsInHalf := by decide +kernel

theorem isCount_half : IsCount unitsInHalf := by decide +kernel

theorem isCount_two : IsCount (2 * unitsInOne) := by decide +kernel

theorem tempoLeast_eq : tempoLeast = .ofUnits unitsInHalf isCount_half := by
  rw [tempoLeast, unitsInOne_eq_two_mul, Nat.mul_comm,
    Binary64.ofRatio_mul_of_isCount isCount_half Nat.two_pos]
  rfl

theorem tempoMost_eq : tempoMost = .ofUnits (2 * unitsInOne) isCount_two := by
  rw [tempoMost, Number.ofUnits]
  exact congrArg _ (Binary64.ofInt_natCast isCount_two)

/-- Doubling a tempo until it is no longer below one half. -/
structure Raises (k : Nat) (hk : IsCount k) (rounds m : Nat) : Prop where
  count : IsCount m
  run : DividesOut (·.lt tempoLeast) tempoLeast (.ofUnits k hk) rounds (.ofUnits m count)
  value : m = 2 ^ rounds * k
  least : unitsInHalf ≤ m
  /-- No round goes as far as one. -/
  below : 0 < rounds → m < unitsInOne

/-- Halving a tempo until it is no longer above two. -/
structure Lowers (k : Nat) (hk : IsCount k) (rounds m : Nat) : Prop where
  count : IsCount m
  run : DividesOut (tempoMost.lt ·) tempoMost (.ofUnits k hk) rounds (.ofUnits m count)
  value : k = 2 ^ rounds * m
  most : m ≤ 2 * unitsInOne
  /-- No round goes back as far as one. -/
  above : 0 < rounds → unitsInOne < m

section Loops

variable {k rounds m : Nat} (hk : IsCount k)

theorem raises_zero (h : unitsInHalf ≤ k) : Raises k hk 0 k where
  count := hk
  run := by
    apply DividesOut.done
    rw [tempoLeast_eq]
    exact Number.ofUnits_not_lt.2 h
  value := (Nat.one_mul k).symm
  least := h
  below hround := absurd hround (Nat.lt_irrefl 0)

theorem Raises.again {hdouble : IsCount (2 * k)} (hlow : k < unitsInHalf)
    (h : Raises (2 * k) hdouble rounds m) : Raises k hk (rounds + 1) m where
  count := h.count
  run := by
    refine .again ?_ ?_ h.run
    · rw [tempoLeast_eq]
      exact Number.ofUnits_lt.2 hlow
    · rw [tempoLeast_eq]
      apply Number.div_ofUnits rfl unitsInHalf_pos
      rw [unitsInOne_eq_two_mul]
      ring
  value := by
    rw [h.value, pow_succ, Nat.mul_assoc]
  least := h.least
  below _ := by
    by_cases hround : 0 < rounds
    · exact h.below hround
    · have hvalue := h.value
      rw [Nat.eq_zero_of_not_pos hround, pow_zero, Nat.one_mul] at hvalue
      rw [hvalue, unitsInOne_eq_two_mul]
      exact Nat.mul_lt_mul_of_pos_left hlow Nat.two_pos

theorem exists_raises {bound : Nat} (hbound : unitsInHalf ≤ 2 ^ bound * k) :
    ∃ rounds m, rounds ≤ bound ∧ Raises k hk rounds m := by
  have hrange : 2 * unitsInHalf < unitsLimit := by decide +kernel
  induction bound generalizing k with
  | zero =>
      simp only [pow_zero, Nat.one_mul] at hbound
      exact ⟨0, k, le_rfl, raises_zero hk hbound⟩
  | succ bound ih =>
      by_cases hlow : k < unitsInHalf
      · have hdouble : IsCount (2 * k) := hk.double (by omega)
        have hrest : unitsInHalf ≤ 2 ^ bound * (2 * k) :=
          calc unitsInHalf ≤ 2 ^ (bound + 1) * k := hbound
            _ = 2 ^ bound * (2 * k) := by ring
        obtain ⟨rounds, m, hle, h⟩ := ih hdouble hrest
        exact ⟨rounds + 1, m, Nat.succ_le_succ hle, h.again hk hlow⟩
      · exact ⟨0, k, Nat.zero_le _, raises_zero hk (not_lt.1 hlow)⟩

theorem lowers_zero (h : k ≤ 2 * unitsInOne) : Lowers k hk 0 k where
  count := hk
  run := by
    apply DividesOut.done
    rw [tempoMost_eq]
    exact Number.ofUnits_not_lt.2 h
  value := (Nat.one_mul k).symm
  most := h
  above hround := absurd hround (Nat.lt_irrefl 0)

theorem Lowers.again (hdouble : IsCount (2 * k)) (hhigh : unitsInOne < k)
    (h : Lowers k hk rounds m) : Lowers (2 * k) hdouble (rounds + 1) m where
  count := h.count
  run := by
    refine .again ?_ ?_ h.run
    · rw [tempoMost_eq, Number.ofUnits_lt]
      exact Nat.mul_lt_mul_of_pos_left hhigh Nat.two_pos
    · rw [tempoMost_eq]
      apply Number.div_ofUnits rfl (Nat.mul_pos Nat.two_pos unitsInOne_pos)
      ring
  value := by
    rw [h.value]
    ring
  most := h.most
  above _ := by
    by_cases hround : 0 < rounds
    · exact h.above hround
    · have hvalue := h.value
      rw [Nat.eq_zero_of_not_pos hround, pow_zero, Nat.one_mul] at hvalue
      exact hhigh.trans_eq hvalue

theorem exists_lowers {bound : Nat} (hbound : k ≤ 2 ^ bound * (2 * unitsInOne)) :
    ∃ rounds m, rounds ≤ bound ∧ Lowers k hk rounds m := by
  have hlarge : 2 ^ 53 ≤ 2 * unitsInOne := by decide +kernel
  induction bound generalizing k with
  | zero =>
      simp only [pow_zero, Nat.one_mul] at hbound
      exact ⟨0, k, le_rfl, lowers_zero hk hbound⟩
  | succ bound ih =>
      by_cases hhigh : 2 * unitsInOne < k
      · obtain ⟨half, hhalf, rfl⟩ := hk.half (hlarge.trans hhigh.le)
        have hrest : half ≤ 2 ^ bound * (2 * unitsInOne) := by
          apply Nat.le_of_mul_le_mul_left _ Nat.two_pos
          calc 2 * half ≤ 2 ^ (bound + 1) * (2 * unitsInOne) := hbound
            _ = 2 * (2 ^ bound * (2 * unitsInOne)) := by ring
        obtain ⟨rounds, m, hle, h⟩ := ih hhalf hrest
        have hone : unitsInOne < half := Nat.lt_of_mul_lt_mul_left hhigh
        exact ⟨rounds + 1, m, Nat.succ_le_succ hle, h.again hhalf hk hone⟩
      · exact ⟨0, k, Nat.zero_le _, lowers_zero hk (not_lt.1 hhigh)⟩

end Loops

section Residue

variable {k d : Nat} {hk : IsCount k} {hd : IsCount d}

theorem Number.value_ofUnits : (Number.ofUnits k hk).value = k / unitsInOne :=
  value_of_place? place?_ofUnits

/-- What remains of a tempo is a multiple of these units. -/
def residueUnits : Nat := 2 ^ (halfExponent - 52)

theorem residueUnits_dvd (hk : IsCount k) (hleast : unitsInHalf ≤ k) : residueUnits ∣ k := by
  have hpos : k ≠ 0 := (unitsInHalf_pos.trans_le hleast).ne'
  rw [unitsInHalf] at hleast
  have hbits : halfExponent ≤ k.log2 := (Nat.le_log2 hpos).2 hleast
  exact (Nat.pow_dvd_pow 2 (Nat.sub_le_sub_right hbits 52)).trans hk.1

/-- The distance from one of what remains is not rounded. -/
theorem distance_one (hk : IsCount k) (hleast : unitsInHalf ≤ k) (hmost : k ≤ 2 * unitsInOne) :
    ∃ hd : IsCount ((k : Int) - unitsInOne).natAbs,
      (Number.ofUnits k hk).distance 1 = .ok (.ofUnits _ hd) ∧
      residueUnits ∣ ((k : Int) - unitsInOne).natAbs := by
  have hunits : residueUnits ∣ unitsInOne := by decide +kernel
  have hdvd : residueUnits ∣ ((k : Int) - unitsInOne).natAbs := by
    apply Int.natCast_dvd.1
    exact dvd_sub (Int.natCast_dvd_natCast.2 (residueUnits_dvd hk hleast))
      (Int.natCast_dvd_natCast.2 hunits)
  have hle : ((k : Int) - unitsInOne).natAbs ≤ unitsInOne := by omega
  have hcount : IsCount ((k : Int) - unitsInOne).natAbs := by
    apply isCount_of_dvd hdvd (hle.trans _) (hle.trans_lt _)
    · decide +kernel
    · decide +kernel
  refine ⟨hcount, ?_, hdvd⟩
  have hone : IsCount (1 * unitsInOne) := by decide +kernel
  have hvalue : Binary64.ofInt 1 = .finite false (1 * unitsInOne) hone :=
    Binary64.ofInt_natCast hone
  have hsub : (Binary64.finite false k hk).sub (Binary64.ofInt 1) =
      .ofSum ((k : Int) - unitsInOne) false := by
    rw [hvalue, Binary64.sub, Binary64.neg, Binary64.add]
    simp only [Binary64.signedCount, Bool.false_eq_true, ↓reduceIte, Bool.not_false, Nat.one_mul,
      Bool.false_and, sub_eq_add_neg]
  have hfinite : (Binary64.ofInt 1).isInfinite = false := by
    rw [hvalue]
    rfl
  have hexact : (1 : Number).toBinary64 = .ok (Binary64.ofInt 1) := by
    rw [show (1 : Number) = .int 1 from rfl]
    simp only [Number.toBinary64, hfinite, Bool.false_eq_true, ↓reduceIte]
  have hresidue : (Number.ofUnits k hk).sub 1 =
      .ok (.float (.ofSum ((k : Int) - unitsInOne) false)) := by
    rw [← hsub, Number.ofUnits, Number.float_sub]
    exact Number.zipFloat_eq rfl hexact
  rw [Number.distance_eq hresidue, Number.abs, Binary64.abs_ofSum hcount]
  rfl

theorem tempoTolerance_eq :
    ∃ h, tempoTolerance = .ofUnits (roundCount unitsInOne 1000) h := by
  have hlt : roundCount unitsInOne 1000 < unitsLimit := by decide +kernel
  refine ⟨⟨roundCount_dvd _ _, hlt⟩, ?_⟩
  rw [tempoTolerance, Binary64.ofRatio, dif_pos hlt]
  rfl

/-- A multiple of `step` is above `bound` if it is above what lies beside this multiple. -/
theorem lt_multiple_iff {bound step n whole : Nat} (hstep : 0 < step)
    (hbelow : 1000 * (step * (bound / step)) ≤ whole)
    (habove : whole < 1000 * (step * (bound / step + 1))) :
    bound < step * n ↔ whole < 1000 * (step * n) := by
  rw [Nat.mul_comm step n, ← Nat.div_lt_iff_lt_mul hstep, Nat.mul_comm n]
  constructor
  · intro hlt
    exact habove.trans_le (Nat.mul_le_mul_left _ (Nat.mul_le_mul_left _ hlt))
  · intro hlt
    by_contra hle
    have hn : n ≤ bound / step := not_lt.1 hle
    have hback : 1000 * (step * n) ≤ whole :=
      (Nat.mul_le_mul_left _ (Nat.mul_le_mul_left _ hn)).trans hbelow
    exact absurd hlt (not_lt.2 hback)

/-- The tolerance is not quite a thousandth, but nothing that remains is in between. -/
theorem tempoTolerance_lt_iff (hd : IsCount d) (hdvd : residueUnits ∣ d) :
    tempoTolerance.lt (.ofUnits d hd) = true ↔ unitsInOne < 1000 * d := by
  obtain ⟨htolerance, heq⟩ := tempoTolerance_eq
  obtain ⟨n, hn⟩ := hdvd
  rw [heq, Number.ofUnits_lt, hn]
  apply lt_multiple_iff
  · exact Nat.two_pow_pos _
  · decide +kernel
  · decide +kernel

end Residue

/-- What remains of a tempo fits a stage, and this is emitted if it is more than a thousandth away
from one. -/
structure IsResidue (rest : Number) : Prop where
  least : 1 / 2 ≤ rest.value
  most : rest.value ≤ 2
  emitted : ∃ residue, rest.distance 1 = .ok residue ∧
    (tempoTolerance.lt residue = true ↔ 1 / 1000 < |rest.value - 1|)

section Split

theorem isResidue_ofUnits {k : Nat} (hk : IsCount k) (hleast : unitsInHalf ≤ k)
    (hmost : k ≤ 2 * unitsInOne) : IsResidue (.ofUnits k hk) := by
  have hunits : (0 : ℚ) < unitsInOne := Nat.cast_pos.2 unitsInOne_pos
  have hhalf : (unitsInOne : ℚ) = 2 * unitsInHalf := by
    rw [unitsInOne_eq_two_mul]
    push_cast
    rfl
  obtain ⟨hd, hdistance, hdvd⟩ := distance_one hk hleast hmost
  constructor
  case least =>
    have hcast : (unitsInHalf : ℚ) ≤ k := Nat.cast_le.2 hleast
    rw [Number.value_ofUnits, le_div_iff₀ hunits, hhalf]
    linarith
  case most =>
    rw [Number.value_ofUnits, div_le_iff₀ hunits]
    exact_mod_cast hmost
  case emitted =>
    refine ⟨_, hdistance, ?_⟩
    have hvalue : |(Number.ofUnits k hk).value - 1| =
        ((k : Int) - unitsInOne).natAbs / unitsInOne := by
      rw [Number.value_ofUnits, Nat.cast_natAbs, div_sub_one hunits.ne', abs_div,
        abs_of_pos hunits]
      push_cast
      rfl
    rw [tempoTolerance_lt_iff hd hdvd, hvalue, lt_div_iff₀ hunits]
    constructor
    · intro hlt
      have hcast : (unitsInOne : ℚ) < 1000 * ((k : Int) - unitsInOne).natAbs := by
        exact_mod_cast hlt
      linarith
    · intro hlt
      have hcast : (unitsInOne : ℚ) < 1000 * ((k : Int) - unitsInOne).natAbs := by
        linarith
      exact_mod_cast hcast

theorem isResidue_int {n : Int} (hn : n = 1 ∨ n = 2) : IsResidue (.int n) := by
  rcases hn with rfl | rfl
  · have htolerance : tempoTolerance.lt (.int 0) = false := by decide +kernel
    exact ⟨by norm_num [Number.value], by norm_num [Number.value], .int 0, rfl,
      by norm_num [Number.value, htolerance]⟩
  · have htolerance : tempoTolerance.lt (.int 1) = true := by decide +kernel
    exact ⟨by norm_num [Number.value], by norm_num [Number.value], .int 1, rfl,
      by norm_num [Number.value, htolerance]⟩

theorem exists_positive {x : Binary64} (hfinite : x.isFinite = true)
    (hpos : Number.lt 0 (.float x) = true) :
    ∃ k, ∃ hk : IsCount k, 0 < k ∧ Number.float x = .ofUnits k hk := by
  obtain ⟨p, q, hp, hq, hlt⟩ := Number.exists_places_of_lt hpos
  obtain rfl : Place.point 0 = p := Option.some.inj (Number.place?_zero.symm.trans hp)
  rcases x with _ | _ | ⟨_ | _, k, hk⟩
  case nan => simp only [Binary64.isFinite, Bool.false_eq_true] at hfinite
  case infinity => simp only [Binary64.isFinite, Bool.false_eq_true] at hfinite
  case finite.false =>
    obtain rfl : Place.point k = q := Option.some.inj hq
    rw [Place.point_lt_point] at hlt
    exact ⟨k, hk, by exact_mod_cast hlt, rfl⟩
  case finite.true =>
    obtain rfl : Place.point (-k) = q := Option.some.inj hq
    rw [Place.point_lt_point] at hlt
    omega

/-- The loops of a tempo end, one of them at once, with what is left of it. -/
structure Reduces (tempo : Number) (q : ℚ) (halves doubles : Nat) (between rest : Number) :
    Prop where
  raised : DividesOut (·.lt tempoLeast) tempoLeast tempo halves between
  lowered : DividesOut (tempoMost.lt ·) tempoMost between doubles rest
  enough : halves ≤ tempoFuel ∧ doubles ≤ tempoFuel
  oneWay : halves = 0 ∨ doubles = 0
  residue : IsResidue rest
  value : (1 / 2) ^ halves * 2 ^ doubles * rest.value = q

/-- Both loops together: as the first stays below one and the second above, only one of them has
rounds. -/
theorem Raises.reduces {k halves m doubles n : Nat} {hk : IsCount k}
    (hraised : Raises k hk halves m) (hlowered : Lowers m hraised.count doubles n)
    (henough : halves ≤ tempoFuel ∧ doubles ≤ tempoFuel) :
    Reduces (.ofUnits k hk) (k / unitsInOne) halves doubles (.ofUnits m hraised.count)
      (.ofUnits n hlowered.count) := by
  have hle : n ≤ m := by
    rw [hlowered.value]
    exact Nat.le_mul_of_pos_left n (Nat.two_pow_pos doubles)
  have honeWay : halves = 0 ∨ doubles = 0 := by
    by_cases hraise : 0 < halves
    · by_contra hboth
      have hlower : 0 < doubles := Nat.pos_of_ne_zero fun hzero => hboth (.inr hzero)
      have hlt : n < n := (hle.trans_lt (hraised.below hraise)).trans (hlowered.above hlower)
      exact absurd hlt (lt_irrefl n)
    · exact .inl (Nat.eq_zero_of_not_pos hraise)
  have hrest : unitsInHalf ≤ n := by
    by_cases hlower : 0 < doubles
    · have hunits : unitsInHalf ≤ unitsInOne := by
        rw [unitsInOne_eq_two_mul]
        omega
      exact hunits.trans (hlowered.above hlower).le
    · have hvalue := hlowered.value
      rw [Nat.eq_zero_of_not_pos hlower, pow_zero, Nat.one_mul] at hvalue
      exact hvalue ▸ hraised.least
  have hcounts : (2 : ℚ) ^ doubles * n = 2 ^ halves * k := by
    exact_mod_cast hlowered.value.symm.trans hraised.value
  refine ⟨hraised.run, hlowered.run, henough, honeWay,
    isResidue_ofUnits hlowered.count hrest hlowered.most, ?_⟩
  calc (1 / 2 : ℚ) ^ halves * 2 ^ doubles * (Number.ofUnits n hlowered.count).value
      = (1 / 2) ^ halves * (2 ^ doubles * n / unitsInOne) := by
        rw [Number.value_ofUnits]
        ring
    _ = (1 / 2 * 2) ^ halves * (k / unitsInOne) := by
        rw [hcounts, mul_pow]
        ring
    _ = k / unitsInOne := by
        rw [one_div_mul_cancel two_ne_zero, one_pow, one_mul]

theorem exists_reduces_ofUnits {k : Nat} (hk : IsCount k) (hpos : 0 < k) :
    ∃ halves doubles between rest,
      Reduces (.ofUnits k hk) (k / unitsInOne) halves doubles between rest := by
  have hleastBound : unitsInHalf ≤ 2 ^ halfExponent * k :=
    Nat.le_mul_of_pos_right unitsInHalf hpos
  obtain ⟨halves, m, hhalves, hraised⟩ := exists_raises hk hleastBound
  have hrange : unitsLimit ≤ 2 ^ halfExponent * (2 * unitsInOne) := by decide +kernel
  obtain ⟨doubles, n, hdoubles, hlowered⟩ :=
    exists_lowers hraised.count (hraised.count.2.le.trans hrange)
  have hfuel : halfExponent ≤ tempoFuel := by decide
  exact ⟨halves, doubles, _, _,
    hraised.reduces hlowered ⟨hhalves.trans hfuel, hdoubles.trans hfuel⟩⟩

/-- A whole number up to two takes no round. -/
theorem exists_reduces_small {n : Int} (hn : n = 1 ∨ n = 2) :
    ∃ halves doubles between rest, Reduces (.int n) n halves doubles between rest := by
  have hinside : (Number.int n).lt tempoLeast = false ∧ tempoMost.lt (.int n) = false := by
    rcases hn with rfl | rfl
    · decide +kernel
    · decide +kernel
  exact ⟨0, 0, _, _, .done hinside.1, .done hinside.2, ⟨Nat.zero_le _, Nat.zero_le _⟩, .inl rfl,
    isResidue_int hn, by rw [pow_zero, pow_zero, one_mul, one_mul]; rfl⟩

/-- A greater one is halved as its binary64 value is. -/
theorem exists_reduces_large {n : Int} {x : Binary64} (hx : (Number.int n).toBinary64 = .ok x)
    (hfinite : x.isFinite = true) (hn : 3 ≤ n) :
    ∃ halves doubles between rest,
      Reduces (.int n) (Number.float x).value halves doubles between rest := by
  have hthree : IsCount (3 * unitsInOne) := by decide +kernel
  have hsize : 3 * unitsInOne ≤ n.natAbs * unitsInOne := Nat.mul_le_mul_right _ (by omega)
  have hof : Binary64.ofInt n = x := by
    simp only [Number.toBinary64] at hx
    split at hx
    · simp only [reduceCtorEq] at hx
    · exact Except.ok.inj hx
  rw [Binary64.ofInt, decide_eq_false (by omega)] at hof
  obtain ⟨p, hp, hle⟩ := Binary64.le_place_ofRatio hthree hsize
  rw [hof] at hp
  have hpos : Number.lt 0 (.float x) = true := by
    rw [Number.lt_iff Number.place?_zero hp]
    refine lt_of_lt_of_le ?_ hle
    rw [Place.point_lt_point]
    exact_mod_cast Nat.mul_pos (by decide) unitsInOne_pos
  obtain ⟨k, hk, hk0, hkx⟩ := exists_positive hfinite hpos
  rw [hkx] at hp ⊢
  obtain rfl : Place.point k = p := Option.some.inj hp
  rw [Place.point_le_point] at hle
  have hlarge : 3 * unitsInOne ≤ k := by exact_mod_cast hle
  have hpositive := unitsInOne_pos
  have hwhole : (3 : Int) * unitsInOne ≤ n * unitsInOne :=
    mul_le_mul_of_nonneg_right hn Number.units_pos.le
  have houtside : tempoMost.lt (.ofUnits k hk) = true ∧ tempoMost.lt (.int n) = true := by
    rw [tempoMost_eq, Number.ofUnits_lt, Number.lt_iff Number.place?_ofUnits (Number.place?_int n),
      Place.point_lt_point]
    push_cast
    omega
  have hinside : (Number.ofUnits k hk).lt tempoLeast = false ∧
      (Number.int n).lt tempoLeast = false := by
    have hhalf := unitsInOne_eq_two_mul
    rw [tempoLeast_eq, Number.ofUnits_not_lt, Bool.eq_false_iff, ne_eq,
      Number.lt_iff (Number.place?_int n) Number.place?_ofUnits, Place.point_lt_point]
    omega
  obtain ⟨halves, doubles, between, rest, h⟩ := exists_reduces_ofUnits hk hk0
  obtain ⟨rfl, rfl⟩ := h.raised.eq_of_inside hinside.1
  have hlowered := h.lowered
  rw [← hkx] at hlowered houtside
  refine ⟨0, doubles, _, rest, .done hinside.2,
    .of_toBinary64 hx houtside.2 houtside.1 hlowered, h.enough, .inl rfl, h.residue, ?_⟩
  rw [h.value, Number.value_ofUnits]

theorem exists_reduces {tempo : Number} {x : Binary64} (hx : tempo.toBinary64 = .ok x)
    (hfinite : x.isFinite = true) (hpos : Number.lt 0 tempo = true) :
    ∃ halves doubles between rest,
      Reduces tempo (Number.float x).value halves doubles between rest := by
  cases tempo with
  | float y =>
      obtain rfl : y = x := Except.ok.inj hx
      obtain ⟨k, hk, hk0, hkx⟩ := exists_positive hfinite hpos
      rw [hkx, Number.value_ofUnits]
      exact exists_reduces_ofUnits hk hk0
  | int n =>
      have hn : 0 < n := Number.zero_lt_int.1 hpos
      by_cases hsmall : n ≤ 2
      · have hcases : n = 1 ∨ n = 2 := by omega
        have hcount : IsCount (n.natAbs * unitsInOne) := isCount_whole (by omega)
        rw [(Number.isExact_int hcount).value_eq hx]
        exact exists_reduces_small hcases
      · exact exists_reduces_large hx hfinite (by omega)

end Split

/-- The stages of whole halvings and doublings. -/
def wholeStages (halves doubles : Nat) : List Number :=
  List.replicate halves tempoLeast ++ List.replicate doubles tempoMost

/-- The factors of stages of one half up to two, all but the last of them one half or all but the
last of them two, that give a tempo together with one more factor. -/
structure SplitsTempo (q : ℚ) (factors : List Number) (r : ℚ) : Prop where
  fits : ∀ f ∈ factors, 1 / 2 ≤ f.value ∧ f.value ≤ 2
  alike : (∀ f ∈ factors.dropLast, f.value = 1 / 2) ∨ ∀ f ∈ factors.dropLast, f.value = 2
  product : (factors.map Number.value).prod * r = q

section Factors

variable {tempo between rest : Number} {x : Binary64} {q : ℚ} {halves doubles : Nat}

theorem value_tempoLeast : tempoLeast.value = 1 / 2 := by
  have hhalf : (unitsInHalf : ℚ) ≠ 0 := Nat.cast_ne_zero.2 unitsInHalf_pos.ne'
  rw [tempoLeast_eq, Number.value_ofUnits, unitsInOne_eq_two_mul, Nat.cast_mul, Nat.cast_two,
    ← div_div, div_right_comm, div_self hhalf]

theorem value_tempoMost : tempoMost.value = 2 := by
  have hunits : (unitsInOne : ℚ) ≠ 0 := Nat.cast_ne_zero.2 unitsInOne_pos.ne'
  rw [tempoMost_eq, Number.value_ofUnits, Nat.cast_mul, Nat.cast_two, mul_div_assoc,
    div_self hunits, mul_one]

theorem prod_wholeStages (halves doubles : Nat) :
    ((wholeStages halves doubles).map Number.value).prod = (1 / 2) ^ halves * 2 ^ doubles := by
  rw [wholeStages, List.map_append, List.map_replicate, List.map_replicate, List.prod_append,
    List.prod_replicate, List.prod_replicate, value_tempoLeast, value_tempoMost]

/-- The factors are the whole stages, and what remains unless it is near one. -/
theorem tempoFactors_of_reduces (hx : tempo.toBinary64 = .ok x) (hfinite : x.isFinite = true)
    (hpos : Number.lt 0 tempo = true) (h : Reduces tempo q halves doubles between rest) :
    tempoFactors tempo = .ok (if 1 / 1000 < |rest.value - 1| then
      wholeStages halves doubles ++ [rest] else wholeStages halves doubles) := by
  obtain ⟨residue, hresidue, hemitted⟩ := h.residue.emitted
  by_cases hone : tempo.eq 1 = true
  · obtain ⟨p, hp, hp1⟩ := Number.exists_places_of_eq hone
    obtain rfl : Place.point (1 * unitsInOne) = p := Option.some.inj hp1
    have hunits : (unitsInOne : ℚ) ≠ 0 := Nat.cast_ne_zero.2 unitsInOne_pos.ne'
    have hvalue : tempo.value = 1 := by
      rw [Number.value_of_place? hp, Int.one_mul, Int.cast_natCast, div_self hunits]
    have hnone : tempo.lt tempoLeast = false ∧ tempoMost.lt tempo = false ∧
        tempoFactors tempo = .ok [] := by
      rcases eq_one_cases hone with rfl | rfl
      · decide +kernel
      · decide +kernel
    obtain ⟨rfl, rfl⟩ := h.raised.eq_of_inside hnone.1
    obtain ⟨rfl, rfl⟩ := h.lowered.eq_of_inside hnone.2.1
    have hnear : ¬1 / 1000 < |rest.value - 1| := by
      rw [hvalue]
      norm_num
    rw [hnone.2.2, if_neg hnear]
    rfl
  · have hle : tempo.le 0 = false := by
      obtain ⟨p, q, hp, hq, hlt⟩ := Number.exists_places_of_lt hpos
      rw [Bool.eq_false_iff, ne_eq, Number.le_iff hq hp]
      exact not_le.2 hlt
    simp only [tempoFactors, hx, hfinite, hle, Bool.eq_false_iff.2 hone,
      h.raised.divideOut_eq h.enough.1, h.lowered.divideOut_eq h.enough.2, hresidue, bind,
      Except.bind, pure, Except.pure, Bool.not_true, Bool.or_self, Bool.false_eq_true, ↓reduceIte,
      hemitted, wholeStages]

/-- A positive tempo is split without a rest, or with one that is within a thousandth of one. -/
theorem tempoFactors_splitsTempo (hx : tempo.toBinary64 = .ok x) (hfinite : x.isFinite = true)
    (hpos : Number.lt 0 tempo = true) :
    ∃ halves doubles between rest factors r,
      DividesOut (·.lt tempoLeast) tempoLeast tempo halves between ∧
      DividesOut (tempoMost.lt ·) tempoMost between doubles rest ∧
      tempoFactors tempo = .ok factors ∧
      SplitsTempo (Number.float x).value factors r ∧
      (factors = wholeStages halves doubles ++ [rest] ∧ r = 1 ∨
        factors = wholeStages halves doubles ∧ r = rest.value ∧ |r - 1| ≤ 1 / 1000) ∧
      (tempo.IsExact → (Number.float x).value = tempo.value) := by
  obtain ⟨halves, doubles, between, rest, h⟩ := exists_reduces hx hfinite hpos
  have hfactors := tempoFactors_of_reduces hx hfinite hpos h
  have hwhole : (∀ f ∈ wholeStages halves doubles, f.value = 1 / 2) ∨
      ∀ f ∈ wholeStages halves doubles, f.value = 2 := by
    rcases h.oneWay with rfl | rfl
    · right
      intro f hf
      rw [wholeStages, List.replicate_zero, List.nil_append] at hf
      rw [List.eq_of_mem_replicate hf, value_tempoMost]
    · left
      intro f hf
      rw [wholeStages, List.replicate_zero, List.append_nil] at hf
      rw [List.eq_of_mem_replicate hf, value_tempoLeast]
  have hfits : ∀ f ∈ wholeStages halves doubles, 1 / 2 ≤ f.value ∧ f.value ≤ 2 := by
    intro f hf
    rcases hwhole with hwhole | hwhole
    · rw [hwhole f hf]
      norm_num
    · rw [hwhole f hf]
      norm_num
  have hvalue := fun hexact : tempo.IsExact => hexact.value_eq hx
  by_cases hfar : 1 / 1000 < |rest.value - 1|
  · rw [if_pos hfar] at hfactors
    refine ⟨halves, doubles, between, rest, _, 1, h.raised, h.lowered, hfactors, ?_,
      .inl ⟨rfl, rfl⟩, hvalue⟩
    constructor
    case fits => exact List.forall_mem_append.2 ⟨hfits, List.forall_mem_singleton.2
      ⟨h.residue.least, h.residue.most⟩⟩
    case alike =>
      rw [List.dropLast_concat]
      exact hwhole
    case product =>
      rw [List.map_append, List.prod_append, prod_wholeStages, List.map_singleton,
        List.prod_singleton, mul_one]
      exact h.value
  · rw [if_neg hfar] at hfactors
    refine ⟨halves, doubles, between, rest, _, rest.value, h.raised, h.lowered, hfactors, ?_,
      .inr ⟨rfl, rfl, not_lt.1 hfar⟩, hvalue⟩
    constructor
    case fits => exact hfits
    case alike =>
      apply hwhole.imp
      · exact fun hhalf f hf => hhalf f (List.dropLast_subset _ hf)
      · exact fun hdouble f hf => hdouble f (List.dropLast_subset _ hf)
    case product =>
      rw [prod_wholeStages]
      exact h.value

theorem tempoFactors_thousand :
    ∃ halves doubles between rest factors r,
      DividesOut (·.lt tempoLeast) tempoLeast (.int 1000) halves between ∧
      DividesOut (tempoMost.lt ·) tempoMost between doubles rest ∧
      tempoFactors (.int 1000) = .ok factors ∧
      SplitsTempo (Number.float (Binary64.ofInt 1000)).value factors r ∧
      (factors = wholeStages halves doubles ++ [rest] ∧ r = 1 ∨
        factors = wholeStages halves doubles ∧ r = rest.value ∧ |r - 1| ≤ 1 / 1000) ∧
      ((Number.int 1000).IsExact →
        (Number.float (Binary64.ofInt 1000)).value = (Number.int 1000).value) :=
  tempoFactors_splitsTempo (by decide +kernel) (by decide +kernel) (by decide +kernel)

theorem isCount_threeHalves : IsCount (3 * unitsInHalf) := by decide +kernel

/-- A whole number beyond the range of binary64 has no factors, and the factors of one that
binary64 does not hold give its neighbour: here 53 doublings and three halves, one too little. -/
theorem tempoFactors_of_unheld :
    tempoFactors (.int (2 ^ 1024)) = .error .integerTooLarge ∧
      ∃ factors, tempoFactors (.int 13510798882111489) = .ok factors ∧
        factors = wholeStages 0 53 ++ [.ofUnits (3 * unitsInHalf) isCount_threeHalves] ∧
        (factors.map Number.value).prod = 13510798882111488 := by
  have hvalue : (Number.ofUnits (3 * unitsInHalf) isCount_threeHalves).value = 3 / 2 := by
    have hhalf : (unitsInHalf : ℚ) ≠ 0 := Nat.cast_ne_zero.2 unitsInHalf_pos.ne'
    rw [Number.value_ofUnits, unitsInOne_eq_two_mul, Nat.cast_mul, Nat.cast_mul, Nat.cast_ofNat,
      Nat.cast_ofNat, mul_div_mul_right _ _ hhalf]
  refine ⟨by decide +kernel, _, by decide +kernel, rfl, ?_⟩
  rw [List.map_append, List.prod_append, prod_wholeStages, List.map_singleton,
    List.prod_singleton, hvalue]
  norm_num

end Factors

end Montage
