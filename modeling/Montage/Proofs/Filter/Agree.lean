import Montage.Filter.Basic
import Montage.Proofs.Number.Order

/-!
Agreement of filter sets: two sets that agree with a third one agree with each other, and a set
agrees with itself unless it holds a NaN.
-/

namespace Montage

theorem FilterValue.agrees_trans {a b c : FilterValue}
    (hab : a.agrees b = true) (hbc : b.agrees c = true) :
    a.agrees c = true :=
  Number.eq_trans hab hbc

namespace FilterSet

variable {K : Type}

theorem sameValue_trans {x y z : Option FilterValue}
    (hxy : sameValue x y = true) (hyz : sameValue y z = true) :
    sameValue x z = true := by
  rcases x with _ | a <;> rcases y with _ | b <;> rcases z with _ | c
  · rfl
  · exact absurd hyz Bool.false_ne_true
  · exact absurd hxy Bool.false_ne_true
  · exact absurd hxy Bool.false_ne_true
  · exact absurd hxy Bool.false_ne_true
  · exact absurd hxy Bool.false_ne_true
  · exact absurd hyz Bool.false_ne_true
  · exact FilterValue.agrees_trans hxy hyz

/-- No value of the set is a NaN. -/
def NoNaN (s : FilterSet K) : Prop :=
  ∀ k v, s.value? k = some v → v.toNumber.isNaN = false

theorem noNaN_empty : (FilterSet.empty : FilterSet K).NoNaN := by
  intro k v hv
  simp [FilterSet.empty] at hv

theorem NoNaN.merged {s t : FilterSet K} (hs : s.NoNaN) (ht : t.NoNaN) :
    (s.merged t).NoNaN := by
  intro k v hv
  simp only [FilterSet.merged, Option.or_eq_some_iff] at hv
  rcases hv with hv | ⟨-, hv⟩
  · exact ht k v hv
  · exact hs k v hv

theorem noNaN_neutral_video : (FilterSet.neutral : FilterSet VideoKey).NoNaN := by
  intro k v hv
  obtain rfl : FilterKey.neutral k = v := Option.some.inj hv
  cases k <;> rfl

theorem noNaN_neutral_audio : (FilterSet.neutral : FilterSet AudioKey).NoNaN := by
  intro k v hv
  obtain rfl : FilterKey.neutral k = v := Option.some.inj hv
  cases k <;> rfl

variable [FilterKey K] {s t u : FilterSet K}

theorem agrees_trans (hst : s.agrees t = true) (htu : t.agrees u = true) :
    s.agrees u = true := by
  rw [agrees, List.all_eq_true] at hst htu ⊢
  intro k hk
  exact sameValue_trans (hst k hk) (htu k hk)

theorem NoNaN.agrees_self (h : s.NoNaN) : s.agrees s = true := by
  rw [agrees, List.all_eq_true]
  intro k _
  rcases hv : s.value? k with _ | v
  · rfl
  · exact Number.eq_self (h k v hv)

end FilterSet

end Montage
