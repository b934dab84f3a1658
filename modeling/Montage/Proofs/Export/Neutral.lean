import Montage.Export.Tempo
import Montage.Proofs.Filter.Agree
import Montage.Proofs.Number.Rounding

/-!
Neutral filters call for no stages.

Whether a stage is needed is asked of every key by itself, with comparisons of its own.  A set that
agrees with the neutral one lies, key by key, at the neutral places, so each comparison has the
answer that it has for the neutral value.
-/

namespace Montage

namespace Number

variable {a b : Number}

/-- Equal numbers compare alike. -/
theorem eq_congr (h : a.eq b = true) (c : Number) : a.eq c = b.eq c := by
  obtain ⟨p, ha, hb⟩ := exists_places_of_eq h
  simp only [Number.eq, ha, hb]

theorem lt_congr (h : a.eq b = true) (c : Number) : c.lt a = c.lt b := by
  obtain ⟨p, ha, hb⟩ := exists_places_of_eq h
  simp only [Number.lt, ha, hb]

end Number

namespace FilterSet

variable {K : Type} [FilterKey K] {s t : FilterSet K}

/-- Sets that agree have equal amounts. -/
theorem amount_eq (h : s.agrees t = true) {k : K}
    (hk : k ∈ FilterKey.keys (K := K)) : (s.amount k).eq (t.amount k) = true := by
  rw [agrees, List.all_eq_true] at h
  have hsame := h k hk
  simp only [amount]
  rcases hs : s.value? k with _ | a <;> rcases ht : t.value? k with _ | b <;>
    rw [hs, ht] at hsame
  · exact Number.eq_self rfl
  · exact absurd hsame Bool.false_ne_true
  · exact absurd hsame Bool.false_ne_true
  · exact hsame

end FilterSet

section Neutral

/-- How zero and one compare with the neutral values. -/
theorem neutral_comparisons :
    Number.eq 0 0 = true ∧ Number.eq 1 1 = true ∧ Number.lt 0 0 = false ∧
      Number.eq 0 90 = false ∧ Number.eq 0 180 = false ∧ Number.eq 0 270 = false := by
  decide +kernel

theorem videoEffects_of_neutral {video : FilterSet VideoKey}
    (h : video.agrees .neutral = true) (milliseconds : Number) :
    videoEffects video milliseconds = .ok [] := by
  have heq : ∀ k c, (video.amount k).eq c = (FilterKey.neutral k).toNumber.eq c :=
    fun k => Number.eq_congr (FilterSet.amount_eq h (mem_videoKeys k))
  have hlt : ∀ k, Number.lt 0 (video.amount k) =
      Number.lt 0 (FilterKey.neutral k).toNumber :=
    fun k => Number.lt_congr (FilterSet.amount_eq h (mem_videoKeys k)) 0
  have hoff : Number.int 0 = 0 := rfl
  obtain ⟨h00, h11, hlt0, h90, h180, h270⟩ := neutral_comparisons
  simp only [videoEffects, Stage.eqParts, turnStages, FilterSet.isOn, Number.isZero,
    heq, hlt, FilterKey.neutral, FilterValue.toNumber, Bool.false_eq_true, ↓reduceIte,
    hoff, h00, h11, hlt0, h90, h180, h270]
  rfl

theorem audioEffects_of_neutral {audio : FilterSet AudioKey}
    (h : audio.agrees .neutral = true) (milliseconds : Number) :
    audioEffects audio milliseconds = .ok [] := by
  have heq : ∀ k c, (audio.amount k).eq c = (FilterKey.neutral k).toNumber.eq c :=
    fun k => Number.eq_congr (FilterSet.amount_eq h (mem_audioKeys k))
  have hlt : ∀ k, Number.lt 0 (audio.amount k) =
      Number.lt 0 (FilterKey.neutral k).toNumber :=
    fun k => Number.lt_congr (FilterSet.amount_eq h (mem_audioKeys k)) 0
  have hoff : Number.int 0 = 0 := rfl
  obtain ⟨h00, -, hlt0, -, -, -⟩ := neutral_comparisons
  simp only [audioEffects, FilterSet.isOn, Number.isZero, heq, hlt,
    FilterKey.neutral, FilterValue.toNumber, Bool.false_eq_true, ↓reduceIte, hoff, h00,
    hlt0]
  rfl

/-- What is equal to one is a one of either kind. -/
theorem eq_one_cases {a : Number} (h : a.eq 1 = true) :
    a = 1 ∨ a = .float (Binary64.ofInt 1) := by
  cases a with
  | int n => exact Or.inl (congrArg _ (Number.int_eq_int.1 h))
  | float x =>
      have hcount : IsCount ((1 : Int).natAbs * unitsInOne) := by decide +kernel
      have hone : Binary64.ofInt 1 = .finite false _ hcount :=
        Binary64.ofRatio_of_isCount hcount false
      obtain ⟨p, hx, hp⟩ := Number.exists_places_of_eq h
      rw [← hp, show (1 : Number) = .int 1 from rfl, Number.place?_int, one_mul] at hx
      obtain ⟨_, rfl⟩ := Binary64.eq_of_place? unitsInOne_pos hx
      rw [hone, Number.float.injEq, Binary64.finite.injEq, Int.natAbs_one, one_mul]
      exact Or.inr ⟨rfl, rfl⟩

/-- At normal pitch the tempo is the speed, as a binary64 value. -/
theorem tempoStages_of_pitch_zero {pitch : Number} (hpitch : pitch.isZero = true)
    (speed : Option Number) (sampleRate : Document) :
    tempoStages speed (some pitch) sampleRate =
      ((speed.filter (!·.isZero)).getD 1).div (.float (Binary64.ofInt 1)) >>=
        fun tempo => tempoChain (some tempo) := by
  have hratio : pitchRatio 0 = .ok (.float (Binary64.ofInt 1)) := by
    decide +kernel
  have hzero : Number.isZero 0 = true := by decide +kernel
  simp only [tempoStages, Option.filter_some, hpitch, Bool.not_true, Bool.false_eq_true,
    ↓reduceIte, Option.getD_none, hratio, hzero, stageIf, bind, Except.bind, pure, Except.pure,
    List.nil_append]
  generalize Number.div _ _ = quotient
  cases quotient with
  | error f => rfl
  | ok tempo =>
      dsimp only
      cases tempoChain (some tempo) <;> rfl

/-- At normal speed and pitch the tempo stays as it is. -/
theorem tempoStages_of_normal {speed pitch : Number} (hspeed : speed.eq 1 = true)
    (hpitch : pitch.isZero = true) (sampleRate : Document) :
    tempoStages (some speed) (some pitch) sampleRate = .ok [] := by
  have hfactors : tempoFactors (.float (Binary64.ofInt 1)) = .ok [] := by
    decide +kernel
  have htempo : speed.isZero = false ∧
      speed.div (.float (Binary64.ofInt 1)) = .ok (.float (Binary64.ofInt 1)) := by
    rcases eq_one_cases hspeed with rfl | rfl
    · decide +kernel
    · decide +kernel
  rw [tempoStages_of_pitch_zero hpitch]
  simp only [Option.filter_some, htempo.1, Bool.not_false, ↓reduceIte, Option.getD_some, htempo.2,
    tempoChain, hfactors, bind, Except.bind]
  rfl

end Neutral

end Montage
