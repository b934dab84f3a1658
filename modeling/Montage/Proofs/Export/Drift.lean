import Mathlib.Tactic.Linarith
import Mathlib.Tactic.Ring
import Montage.Proofs.Export.Playback
import Montage.Proofs.Timeline.Remembered

/-!
How far the clips of a run are off from its first one.

A run is rendered from its first clip, but each clip is compared with the one before it alone, so
that what the joints are off adds up along the run.
-/

namespace Montage

/-- Where nothing is rounded, this is what the checks between two clips work out. -/
structure ExactChecks (p n : Clip) (boundary : Number) : Prop where
  stop : Number.Unrounded (· + ·) Number.add p.start p.duration
  ended : ∀ e, p.stop = .ok e → Number.Unrounded (· - ·) Number.sub e boundary
  begun : Number.Unrounded (· - ·) Number.sub n.start boundary
  length : Number.Unrounded (· * ·) Number.mul p.duration p.playSpeed
  reached : ∀ d, p.duration.mul p.playSpeed = .ok d →
    Number.Unrounded (· + ·) Number.add p.trim d
  trimmed : ∀ d m, p.duration.mul p.playSpeed = .ok d → p.trim.add d = .ok m →
    Number.Unrounded (· - ·) Number.sub m n.trim

/-- Nor is anything rounded where the volumes of two clips are compared. -/
def ExactVolumes (rule : FilterRule) (p n : Clip) : Prop :=
  ∀ a b, (rule p).volume = .number a → (rule n).volume = .number b →
    Number.Unrounded (· - ·) (Number.zipFloat Binary64.sub) a b

/-- The time of its source at which a clip with this speed would be at time zero. -/
def Clip.offset (v : ℚ) (c : Clip) : ℚ := c.trim.value - c.start.value * v

/-- How far a clip is off, in source time, from going on where the one before it ends. -/
def jointError (v : ℚ) (p n : Clip) : ℚ :=
  n.trim.value - (p.trim.value + p.duration.value * v) -
    v * (n.start.value - (p.start.value + p.duration.value))

/-- The errors of the joints of a run. -/
def jointErrors (v : ℚ) : List Clip → List ℚ
  | p :: n :: rest => jointError v p n :: jointErrors v (n :: rest)
  | _ => []

/-- A clip starts just where the one before it ends, on the timeline and in the source. -/
def MeetsExactly (v : ℚ) (p n : Clip) : Prop :=
  n.trim.value = p.trim.value + p.duration.value * v ∧
    n.start.value = p.start.value + p.duration.value

/-- Two clips play one source onward at one speed, nearly from where the first one ends. -/
structure NearlyMeets (v : ℚ) (p n : Clip) : Prop where
  media : p.mediaId = n.mediaId
  onward : p.reversed = false ∧ n.reversed = false
  speed : p.playSpeed.Is v ∧ n.playSpeed.Is v
  finite : p.start.IsFinite ∧ p.duration.IsFinite ∧ p.trim.IsFinite ∧ n.start.IsFinite ∧
    n.trim.IsFinite
  error : |jointError v p n| ≤ 1 / 2 + |v|

section Checks

variable {a b : Number} {x y : ℚ}

theorem is_timeTolerance : timeTolerance.Is (1 / 2) := by
  obtain ⟨half, hpos, hunits, hplace⟩ := place?_timeTolerance
  refine ⟨half, hplace, ?_⟩
  have hne : (half : ℚ) ≠ 0 := Nat.cast_ne_zero.2 hpos.ne'
  rw [hunits, Nat.cast_mul, Int.cast_natCast, Nat.cast_two, ← div_div, div_right_comm,
    div_self hne]

theorem exists_sub_of_closeTimes (h : closeTimes a b = .ok true) :
    ∃ d, a.sub b = .ok d ∧ d.abs.le timeTolerance = true := by
  simp only [closeTimes, closeWithin, Number.distance, bind_eq_ok] at h
  obtain ⟨_, ⟨d, hd, hdistance⟩, hle⟩ := h
  obtain rfl := Except.ok.inj hdistance
  exact ⟨d, hd, Except.ok.inj hle⟩

theorem isFinite_of_closeTimes (h : closeTimes a b = .ok true) : a.IsFinite ∧ b.IsFinite := by
  obtain ⟨d, hd, hle⟩ := exists_sub_of_closeTimes h
  have hfinite : d.IsFinite := .of_abs_le ⟨_, is_timeTolerance⟩ hle
  exact Number.IsFinite.of_sub hd hfinite

/-- Where nothing is rounded, close times are close as exact values. -/
theorem abs_sub_le_of_closeTimes (h : closeTimes a b = .ok true)
    (hexact : Number.Unrounded (· - ·) Number.sub a b) : |a.value - b.value| ≤ 1 / 2 := by
  obtain ⟨ha, hb⟩ := isFinite_of_closeTimes h
  obtain ⟨d, hd, hle⟩ := exists_sub_of_closeTimes h
  have hvalue : d.Is (a.value - b.value) := hexact ha.is hb.is hd
  exact (hvalue.abs.le_iff is_timeTolerance).1 hle

theorem nearlyMeets_of_seamless {p n : Clip} {boundary : Number}
    (h : seamless p n boundary = .ok true) (hexact : ExactChecks p n boundary) :
    NearlyMeets p.playSpeed.value p n := by
  obtain ⟨hmedia, hspeed, hp, hn, ⟨e, he, hended⟩, hbegun, d, m, hd, hm, htrimmed⟩ :=
    seamless_cases h
  obtain ⟨hefinite, -⟩ := isFinite_of_closeTimes hended
  obtain ⟨hstart, hduration⟩ := Number.IsFinite.of_add he hefinite
  obtain ⟨hmfinite, hntrim⟩ := isFinite_of_closeTimes htrimmed
  obtain ⟨htrim, hdfinite⟩ := Number.IsFinite.of_add hm hmfinite
  obtain ⟨-, hpspeed⟩ := Number.IsFinite.of_mul hd hdfinite
  obtain ⟨hnstart, -⟩ := isFinite_of_closeTimes hbegun
  have hevalue : e.value = p.start.value + p.duration.value :=
    (hexact.stop hstart.is hduration.is he).value_eq
  have hdvalue : d.value = p.duration.value * p.playSpeed.value :=
    (hexact.length hduration.is hpspeed.is hd).value_eq
  have hmvalue : m.value = p.trim.value + d.value :=
    (hexact.reached d hd htrim.is hdfinite.is hm).value_eq
  have hend := abs_sub_le_of_closeTimes hended (hexact.ended e he)
  have hbegin := abs_sub_le_of_closeTimes hbegun hexact.begun
  have hreach := abs_sub_le_of_closeTimes htrimmed (hexact.trimmed d m hd hm)
  constructor
  case media => exact hmedia
  case onward => exact ⟨hp, hn⟩
  case speed => exact ⟨hpspeed.is, hpspeed.is.of_eq hspeed⟩
  case finite => exact ⟨hstart, hduration, htrim, hnstart, hntrim⟩
  case error =>
    have hgap : |n.start.value - (p.start.value + p.duration.value)| ≤ 1 := by
      rw [← hevalue]
      rw [abs_le] at hend hbegin ⊢
      constructor <;> linarith
    have htime :
        |n.trim.value - (p.trim.value + p.duration.value * p.playSpeed.value)| ≤ 1 / 2 := by
      rw [abs_sub_comm, ← hdvalue, ← hmvalue]
      exact hreach
    calc |jointError p.playSpeed.value p n|
        ≤ |n.trim.value - (p.trim.value + p.duration.value * p.playSpeed.value)| +
          |p.playSpeed.value * (n.start.value - (p.start.value + p.duration.value))| :=
          abs_sub _ _
      _ ≤ 1 / 2 + |p.playSpeed.value| * 1 := by
          rw [abs_mul]
          exact add_le_add htime (mul_le_mul_of_nonneg_left hgap (abs_nonneg _))
      _ = 1 / 2 + |p.playSpeed.value| := by rw [mul_one]

theorem is_volumeTolerance : ∃ t : ℚ, t ≤ 1 / 1000000 ∧ volumeTolerance.Is t := by
  have hlt : roundCount unitsInOne 1000000 < unitsLimit := by decide +kernel
  have hplace : volumeTolerance.place? = some (.point (roundCount unitsInOne 1000000)) := by
    rw [volumeTolerance, Binary64.ofRatio, dif_pos hlt]
    rfl
  have hunits : (0 : ℚ) < unitsInOne := Nat.cast_pos.2 unitsInOne_pos
  have hle : roundCount unitsInOne 1000000 * 1000000 ≤ unitsInOne := by decide +kernel
  have hcast : (roundCount unitsInOne 1000000 : ℚ) * 1000000 ≤ unitsInOne := by exact_mod_cast hle
  refine ⟨_, ?_, _, hplace, rfl⟩
  rw [Int.cast_natCast, div_le_iff₀ hunits]
  linarith

/-- Where nothing is rounded, volumes that count as the same are close as exact values. -/
theorem abs_sub_le_of_nearVolumes (h : NearVolumes (.number a) (.number b)) (ha : a.IsFinite)
    (hb : b.IsFinite)
    (hexact : Number.Unrounded (· - ·) (Number.zipFloat Binary64.sub) a b) :
    |b.value - a.value| ≤ 1 / 1000000 := by
  rcases h with hagree | ⟨v, w, hv, hw, hle⟩
  · have heq : a.eq b = true := hagree
    rw [(ha.is.of_eq heq).value_eq, sub_self, abs_zero]
    norm_num
  · have hfinite : ∀ {a : Number} {v : Binary64}, finite? (.number a) = .ok (some v) →
        a.toBinary64 = .ok v := by
      intro a v h
      simp only [finite?, bind_eq_ok] at h
      obtain ⟨x, hx, h⟩ := h
      split at h
      · rw [hx, Option.some.inj (Except.ok.inj h)]
      · simp only [pure, Except.pure, Except.ok.injEq, reduceCtorEq] at h
    have hdiff : (Number.float (v.sub w)).Is (a.value - b.value) :=
      hexact ha.is hb.is (Number.zipFloat_eq (hfinite hv) (hfinite hw))
    obtain ⟨t, ht, htolerance⟩ := is_volumeTolerance
    have hclose := (hdiff.abs.le_iff htolerance).1 hle
    rw [abs_sub_comm]
    exact hclose.trans ht

end Checks

section Run

variable {v : ℚ} {head : Clip} {rest : List Clip} {i : Nat} {c : Clip}

/-- What neighbours are off at most adds up along a list. -/
theorem abs_sub_le_of_isChain {f : Clip → ℚ} {bound : ℚ}
    (h : (head :: rest).IsChain fun p n => |f n - f p| ≤ bound)
    (hi : (head :: rest)[i]? = some c) : |f c - f head| ≤ i * bound := by
  induction rest generalizing head i with
  | nil =>
      cases i with
      | zero =>
          obtain rfl : head = c := Option.some.inj hi
          rw [sub_self, abs_zero, Nat.cast_zero, zero_mul]
      | succ i => simp at hi
  | cons n rest ih =>
      cases i with
      | zero =>
          obtain rfl : head = c := Option.some.inj hi
          rw [sub_self, abs_zero, Nat.cast_zero, zero_mul]
      | succ i =>
          have hlater : |f c - f n| ≤ i * bound := ih h.tail hi
          calc |f c - f head| ≤ |f c - f n| + |f n - f head| := abs_sub_le _ _ _
            _ ≤ i * bound + bound := add_le_add hlater h.rel
            _ = (i + 1 : Nat) * bound := by
                push_cast
                ring

theorem offset_sub_offset (v : ℚ) (p n : Clip) :
    n.offset v - p.offset v = jointError v p n := by
  rw [Clip.offset, Clip.offset, jointError]
  ring

/-- Along a run the errors of the joints add up. -/
theorem offset_sub_head (hi : (head :: rest)[i]? = some c) :
    c.offset v - head.offset v = ((jointErrors v (head :: rest)).take i).sum := by
  induction rest generalizing head i with
  | nil =>
      cases i with
      | zero =>
          obtain rfl : head = c := Option.some.inj hi
          rw [sub_self, List.take_zero, List.sum_nil]
      | succ i => simp at hi
  | cons n rest ih =>
      cases i with
      | zero =>
          obtain rfl : head = c := Option.some.inj hi
          rw [sub_self, List.take_zero, List.sum_nil]
      | succ i =>
          rw [jointErrors, List.take_succ_cons, List.sum_cons, ← ih hi, ← offset_sub_offset]
          ring

/-- Without errors there is nothing to add up. -/
theorem offset_eq_head (h : ((head :: rest).take (i + 1)).IsChain (MeetsExactly v))
    (hi : (head :: rest)[i]? = some c) : c.offset v = head.offset v := by
  rw [List.take_succ_cons] at h
  have hmeets : (head :: rest.take i).IsChain fun p n => |n.offset v - p.offset v| ≤ 0 := by
    apply h.imp
    rintro p n ⟨htrim, hstart⟩
    rw [abs_nonpos_iff, Clip.offset, Clip.offset, htrim, hstart]
    ring
  have htaken : (head :: rest.take i)[i]? = some c := by
    rwa [← List.take_succ_cons, List.getElem?_take_of_lt (Nat.lt_succ_self i)]
  have hle := abs_sub_le_of_isChain (f := Clip.offset v) hmeets htaken
  rwa [mul_zero, abs_nonpos_iff, sub_eq_zero] at hle

/-- The speed of a run is that of its first clip. -/
theorem nearlyMeets_head
    (h : (head :: rest).IsChain fun p n => NearlyMeets p.playSpeed.value p n) :
    (head :: rest).IsChain (NearlyMeets head.playSpeed.value) := by
  induction rest generalizing head with
  | nil => exact .singleton head
  | cons n rest ih =>
      have hfirst : NearlyMeets head.playSpeed.value head n := h.rel
      have hspeed : n.playSpeed.value = head.playSpeed.value := hfirst.speed.2.value_eq
      have hlater := ih h.tail
      rw [hspeed] at hlater
      exact .cons_cons hfirst hlater

end Run

/-- A run plays one source onward at one speed.  Each clip is off from the first one by what the
joints before it are off, and not at all if they are exact. -/
structure Drifts (v : ℚ) (head : Clip) (rest : List Clip) : Prop where
  media : ∀ c ∈ head :: rest, c.mediaId = head.mediaId
  onward : ∀ c ∈ head :: rest, c.reversed = false
  speed : ∀ c ∈ head :: rest, c.playSpeed.Is v
  finite : ∀ c ∈ head :: rest, c.start.IsFinite ∧ c.trim.IsFinite
  lasting : ∀ c ∈ (head :: rest).dropLast, c.duration.IsFinite
  offset : ∀ (i : Nat) c, (head :: rest)[i]? = some c →
    c.offset v - head.offset v = ((jointErrors v (head :: rest)).take i).sum
  bound : ∀ (i : Nat) c, (head :: rest)[i]? = some c →
    |c.offset v - head.offset v| ≤ i * (1 / 2 + |v|)
  exact : ∀ (i : Nat) c, (head :: rest)[i]? = some c →
    ((head :: rest).take (i + 1)).IsChain (MeetsExactly v) → c.offset v - head.offset v = 0

section Drifts

variable {v : ℚ} {head n : Clip} {rest : List Clip}

/-- What each two neighbours have on the left, all but the last one have. -/
theorem forall_dropLast_of_isChain {R : Clip → Clip → Prop} {P : Clip → Prop}
    (hleft : ∀ p n, R p n → P p) (h : (head :: rest).IsChain R) :
    ∀ c ∈ (head :: rest).dropLast, P c := by
  induction rest generalizing head with
  | nil => exact List.forall_mem_nil _
  | cons n rest ih =>
      rw [List.dropLast_cons_cons]
      exact List.forall_mem_cons.2 ⟨hleft head n h.rel, ih h.tail⟩

/-- What two neighbours have, all of two or more have. -/
theorem forall_mem_of_isChain {R : Clip → Clip → Prop} {P : Clip → Prop}
    (hboth : ∀ p n, R p n → P p ∧ P n) (h : (head :: n :: rest).IsChain R) :
    ∀ c ∈ head :: n :: rest, P c := by
  induction rest generalizing head n with
  | nil =>
      obtain ⟨hhead, hn⟩ := hboth head n h.rel
      exact List.forall_mem_cons.2 ⟨hhead, List.forall_mem_singleton.2 hn⟩
  | cons m rest ih =>
      exact List.forall_mem_cons.2 ⟨(hboth head n h.rel).1, ih h.tail⟩

theorem drifts_of_isChain (h : (head :: n :: rest).IsChain (NearlyMeets v)) :
    Drifts v head (n :: rest) := by
  constructor
  case media =>
    have hmedia : (head :: n :: rest).IsChain fun p n => p.mediaId = n.mediaId :=
      h.imp fun _ _ hmeets => hmeets.media
    have htrans : IsTrans Clip fun p n => p.mediaId = n.mediaId := ⟨fun _ _ _ => Eq.trans⟩
    intro c hc
    rcases List.mem_cons.1 hc with rfl | hc
    · rfl
    · exact (hmedia.rel_cons hc).symm
  case onward => exact forall_mem_of_isChain (fun _ _ hmeets => hmeets.onward) h
  case speed => exact forall_mem_of_isChain (fun _ _ hmeets => hmeets.speed) h
  case finite =>
    refine forall_mem_of_isChain ?_ h
    intro p n hmeets
    obtain ⟨hstart, -, htrim, hnstart, hntrim⟩ := hmeets.finite
    exact ⟨⟨hstart, htrim⟩, hnstart, hntrim⟩
  case lasting => exact forall_dropLast_of_isChain (fun _ _ hmeets => hmeets.finite.2.1) h
  case offset => exact fun i c hi => offset_sub_head hi
  case bound =>
    intro i c hi
    apply abs_sub_le_of_isChain _ hi
    apply h.imp
    intro p n hmeets
    rw [offset_sub_offset]
    exact hmeets.error
  case exact =>
    intro i c hi hexact
    rw [offset_eq_head hexact hi, sub_self]

end Drifts

/-- The exact value of a volume that is a number. -/
def Document.amount : Document → ℚ
  | .number a => a.value
  | _ => 0

/-- The volume is a finite number. -/
def Document.IsAmount (d : Document) : Prop := ∃ a, d = .number a ∧ a.IsFinite

/-- What is known of the neighbours in a run. -/
structure FollowsOn (rule : FilterRule) (channel : Channel) (p n : Clip) : Prop where
  meets : NearlyMeets p.playSpeed.value p n
  volumes : channel = .audio → (rule p).volume.IsAmount → (rule n).volume.IsAmount →
    ExactVolumes rule p n → |(rule n).volume.amount - (rule p).volume.amount| ≤ 1 / 1000000

section Joined

variable {rule : FilterRule} {segments : List Segment} {memo memo' : FilterMemo} {r : Joined}

theorem followsOn_of_seamless {channel : Channel} {p n : Clip} {boundary : Number}
    (h : seamless p n boundary = .ok true)
    (hsame : sameRendering channel p n (rule p) (rule n) = .ok true)
    (hexact : ExactChecks p n boundary) : FollowsOn rule channel p n := by
  refine ⟨nearlyMeets_of_seamless h hexact, ?_⟩
  rintro rfl ⟨a, ha, hafinite⟩ ⟨b, hb, hbfinite⟩ hvolumes
  have hnear := (sameRendering_cases hsame).2 rfl
  rw [ha, hb] at hnear ⊢
  exact abs_sub_le_of_nearVolumes hnear hafinite hbfinite (hvolumes a b ha hb)

theorem exists_toList_of_length_le_one {run : List Clip} (h : run.length ≤ 1) :
    ∃ w : Option Clip, run = w.toList := by
  rcases run with _ | ⟨c, _ | ⟨d, rest⟩⟩
  · exact ⟨none, rfl⟩
  · exact ⟨some c, rfl⟩
  · simp at h

/-- The runs of joined segments follow on clip by clip. -/
theorem isChain_followsOn (hsingle : ∀ s ∈ segments, ∀ channel, (s.run channel).length ≤ 1)
    (hexact : ∀ p ∈ segments.flatMap Segment.clips, ∀ n ∈ segments.flatMap Segment.clips,
      ∀ s ∈ segments, seamless p n s.start = .ok true → ExactChecks p n s.start)
    (h : joinAll rule segments = some r) :
    ∀ g ∈ r.segments, ∀ channel, (g.run channel).IsChain (FollowsOn rule channel) := by
  have hwithin := Segment.within_of_subset (List.Subset.refl (segments.flatMap Segment.clips))
  have hfirst : ∀ s ∈ segments, s.Within (segments.flatMap Segment.clips) ∧
      ∀ channel, (s.run channel).IsChain (FollowsOn rule channel) := by
    intro s hs
    refine ⟨hwithin s hs, ?_⟩
    intro channel
    obtain ⟨w, hw⟩ := exists_toList_of_length_le_one (hsingle s hs channel)
    rw [hw]
    cases w with
    | none => exact .nil
    | some c => exact .singleton c
  have hjoined : ∀ s t, (s.Within (segments.flatMap Segment.clips) ∧
      ∀ channel, (s.run channel).IsChain (FollowsOn rule channel)) → t ∈ segments → True →
      joint rule s t = some .joined → (s.joined t).Within (segments.flatMap Segment.clips) ∧
        ∀ channel, ((s.joined t).run channel).IsChain (FollowsOn rule channel) := by
    rintro s t ⟨hs, hchain⟩ ht - hj
    refine ⟨hs.joined (hwithin t ht), ?_⟩
    intro channel
    obtain ⟨w, hw⟩ := exists_toList_of_length_le_one (hsingle t ht channel)
    apply isChain_run_joined (hchain channel) hw hj
    intro p hp n hn hseam hsame
    have hchecks := hexact p (hs channel p hp) n (hwithin t ht channel n hn) t ht hseam
    exact followsOn_of_seamless hseam hsame hchecks
  have hchain : segments.IsChain fun _ _ => True :=
    (List.pairwise_of_forall fun _ _ => trivial).isChain
  intro g hg
  exact (joinAll_forall (M := fun _ _ => True) hfirst hjoined (fun _ hs => hs) hchain h g hg).2

/-- Where nothing is rounded, the clips of a run are off from its first one by what its joints are
off, and so are the volumes of a run of sound. -/
theorem joinSegments_drifts (h : (joinSegments rule segments).run memo = .ok (r, memo'))
    (hsingle : ∀ s ∈ segments, ∀ channel, (s.run channel).length ≤ 1)
    (hexact : ∀ p ∈ segments.flatMap Segment.clips, ∀ n ∈ segments.flatMap Segment.clips,
      ∀ s ∈ segments, seamless p n s.start = .ok true → ExactChecks p n s.start) :
    ∀ g ∈ r.segments, ∀ channel head rest, g.run channel = head :: rest → rest ≠ [] →
      (∃ v, Drifts v head rest) ∧
      (channel = .audio → (∀ c ∈ head :: rest, (memo'.recall rule c).volume.IsAmount) →
        (∀ p ∈ head :: rest, ∀ n ∈ head :: rest, ExactVolumes (memo'.recall rule) p n) →
        ∀ (i : Nat) c, (head :: rest)[i]? = some c →
          |(memo'.recall rule c).volume.amount - (memo'.recall rule head).volume.amount| ≤
            i * (1 / 1000000)) ∧
      (Coherent (segments.flatMap Segment.clips) → memo = [] →
        ∀ c ∈ head :: rest, memo'.recall rule c = rule c) := by
  have hjoin := joinAll_of_run h
  intro g hg channel head rest hrun hrest
  have hchain := isChain_followsOn hsingle hexact hjoin g hg channel
  rw [hrun] at hchain
  refine ⟨?_, ?_, ?_⟩
  · obtain ⟨n, rest, rfl⟩ := List.exists_cons_of_ne_nil hrest
    exact ⟨_, drifts_of_isChain (nearlyMeets_head (hchain.imp fun _ _ hlink => hlink.meets))⟩
  · rintro rfl hamounts hexactVolumes i c hi
    have hvolumes : (head :: rest).IsChain fun p n =>
        |(memo'.recall rule n).volume.amount - (memo'.recall rule p).volume.amount| ≤
          1 / 1000000 := by
      apply hchain.imp_of_mem_imp
      intro p n hp hn hlink
      exact hlink.volumes rfl (hamounts p hp) (hamounts n hn) (hexactVolumes p hp n hn)
    exact abs_sub_le_of_isChain (f := fun c => (memo'.recall rule c).volume.amount) hvolumes hi
  · rintro hclips rfl c hc
    have hwithin := within_of_joinAll hclips
      (Segment.within_of_subset (List.Subset.refl _)) hjoin g hg channel c
    rw [hrun] at hwithin
    exact recall_of_run hclips h c (hwithin hc)

end Joined

section Whole

variable {p n : Clip} {start length trim speed : Int}

/-- Whole times are not rounded, so that only the place in the source may be. -/
theorem Clip.Counts.exactChecks (hp : p.Counts start length trim speed) {start' : Int}
    (hstart : n.start = .int start') (k : Int)
    (htrimmed : Number.Unrounded (· - ·) Number.sub (.int (trim + length * speed)) n.trim) :
    ExactChecks p n (.int k) := by
  constructor
  case stop =>
    rw [hp.start_eq, hp.duration_eq]
    exact Number.unrounded_add_int start length
  case ended =>
    intro e he
    rw [← Except.ok.inj (hp.stop_eq.symm.trans he)]
    exact Number.unrounded_sub_int (start + length) k
  case begun =>
    rw [hstart]
    exact Number.unrounded_sub_int start' k
  case length =>
    rw [hp.duration_eq, hp.speed_eq]
    exact Number.unrounded_mul_int length speed
  case reached =>
    intro d hd
    rw [← Except.ok.inj (hp.mul_eq.symm.trans hd), hp.trim_eq]
    exact Number.unrounded_add_int trim (length * speed)
  case trimmed =>
    intro d m hd hm
    rw [← Except.ok.inj (hp.mul_eq.symm.trans hd)] at hm
    rw [← Except.ok.inj ((hp.add_eq (length * speed)).symm.trans hm)]
    exact htrimmed

end Whole

/-- The ids of the clips that are heard in each of some joined segments. -/
def heard (result : Except Fault (Joined × FilterMemo)) : Except Fault (List (List String)) :=
  result.map fun r => r.1.segments.map fun s => s.audio.map Clip.id

/-- A little more than one. -/
def lateVolume : Number := .float (Binary64.ofRatio false ((2 ^ 21 + 1) * unitsInOne) (2 ^ 21))

/-- The second half of a film, half a millisecond late in it and a little louder. -/
def lateHalf : Clip :=
  { halves.2 with
    trimStart := some (.float (Binary64.ofRatio false (2001 * unitsInOne) 2))
    volume := some lateVolume }

/-- A film in two halves, the first of them cut once more. -/
def filmSegments : List Segment :=
  firstSegments ++ [{ start := 1000, stop := 2000, video := [lateHalf], audio := [lateHalf] }]

theorem place?_trim_lateHalf :
    lateHalf.trim.place? = some (.point (2001 * (unitsInOne / 2) : Nat)) := by
  decide +kernel

theorem counts_halves : halves.1.Counts 0 1000 0 1 :=
  .of_fields rfl rfl rfl rfl (by decide)

theorem clips_filmSegments : filmSegments.flatMap Segment.clips ⊆ [halves.1, lateHalf] := by
  simp [filmSegments, firstSegments, Segment.clips]

theorem coherent_filmSegments : Coherent (filmSegments.flatMap Segment.clips) :=
  (coherent_of_nodup (by decide)).mono clips_filmSegments

/-- The one joint is where the halves meet, and it takes one float. -/
theorem exactChecks_filmSegments :
    ∀ p ∈ filmSegments.flatMap Segment.clips, ∀ n ∈ filmSegments.flatMap Segment.clips,
      ∀ s ∈ filmSegments, seamless p n s.start = .ok true → ExactChecks p n s.start := by
  have hjoint : ∀ p ∈ [halves.1, lateHalf], ∀ n ∈ [halves.1, lateHalf], ∀ s ∈ filmSegments,
      seamless p n s.start = .ok true →
        p.id = "first" ∧ n.id = "second" ∧ s.start = 1000 := by decide +kernel
  have htrimmed : Number.Unrounded (· - ·) Number.sub (.int (0 + 1000 * 1)) lateHalf.trim :=
    Number.unrounded_of_units rfl place?_trim_lateHalf (by decide +kernel)
  intro p hp n hn s hs hseam
  have hpmem := clips_filmSegments hp
  have hnmem := clips_filmSegments hn
  obtain ⟨hpid, hnid, hstart⟩ := hjoint p hpmem n hnmem s hs hseam
  rw [List.mem_pair] at hpmem hnmem
  obtain rfl : p = halves.1 := hpmem.resolve_right (by rintro rfl; exact absurd hpid (by decide))
  obtain rfl : n = lateHalf := hnmem.resolve_left (by rintro rfl; exact absurd hnid (by decide))
  rw [hstart]
  exact counts_halves.exactChecks rfl 1000 htrimmed

/-- The volumes of the halves, with their numbers of units. -/
def halfVolumes : List (Number × Int) :=
  [(1, unitsInOne), (lateVolume, (unitsInOne + unitsInOne / 2 ^ 21 : Nat))]

theorem place?_halfVolumes : ∀ v ∈ halfVolumes, v.1.place? = some (.point v.2) := by
  decide +kernel

theorem exists_volume_filmSegments : ∀ c ∈ [halves.1, lateHalf],
    ∃ v ∈ halfVolumes, (Defaults.effective {} c).volume = .number v.1 :=
  List.forall_mem_cons.2 ⟨⟨_, .head _, rfl⟩,
    List.forall_mem_singleton.2 ⟨_, .tail _ (.head _), rfl⟩⟩

theorem exactVolumes_filmSegments : ∀ p ∈ [halves.1, lateHalf], ∀ n ∈ [halves.1, lateHalf],
    ExactVolumes (Defaults.effective {}) p n := by
  have hdiffs : ∀ v ∈ halfVolumes, ∀ w ∈ halfVolumes,
      (Number.zipFloat Binary64.sub v.1 w.1).map Number.place? =
        .ok (some (.point (v.2 - w.2))) := by
    decide +kernel
  intro p hp n hn a b ha hb
  obtain ⟨v, hv, hpvolume⟩ := exists_volume_filmSegments p hp
  obtain ⟨w, hw, hnvolume⟩ := exists_volume_filmSegments n hn
  obtain rfl : v.1 = a := Document.number.inj (hpvolume.symm.trans ha)
  obtain rfl : w.1 = b := Document.number.inj (hnvolume.symm.trans hb)
  exact Number.unrounded_of_units (place?_halfVolumes v hv) (place?_halfVolumes w hw)
    (hdiffs v hv w hw)

theorem offset_lateHalf : lateHalf.offset 1 - halves.1.offset 1 = 1 / 2 := by
  have htrim : lateHalf.trim.Is ((2001 : Int) / (2 : Nat)) :=
    Number.is_of_units place?_trim_lateHalf two_pos (by decide +kernel)
  have hstart : lateHalf.start = .int 1000 := rfl
  rw [Clip.offset, Clip.offset, htrim.value_eq, hstart, counts_halves.start_eq,
    counts_halves.trim_eq]
  norm_num [Number.value]

/-- Two halves of a film are joined, though the second of them is half a millisecond off. -/
theorem drifts_filmSegments :
    lateHalf.offset 1 - halves.1.offset 1 = 1 / 2 ∧
      ∃ r memo, (joinSegments (Defaults.effective {}) filmSegments).run [] = .ok (r, memo) ∧
        heard (.ok (r, memo)) = .ok [["first", "second"]] ∧
        ∀ g ∈ r.segments, ∀ channel head rest, g.run channel = head :: rest → rest ≠ [] →
          (∃ v, Drifts v head rest) ∧
          (channel = .audio → ∀ (i : Nat) c, (head :: rest)[i]? = some c →
            |(memo.recall (Defaults.effective {}) c).volume.amount -
              (memo.recall (Defaults.effective {}) head).volume.amount| ≤ i * (1 / 1000000)) ∧
          ∀ c ∈ head :: rest, memo.recall (Defaults.effective {}) c = Defaults.effective {} c := by
  have hheard : heard ((joinSegments (Defaults.effective {}) filmSegments).run []) =
      .ok [["first", "second"]] := by decide +kernel
  have hsingle : ∀ s ∈ filmSegments, ∀ channel, (s.run channel).length ≤ 1 := by
    intro s hs channel
    revert s
    cases channel with
    | video => decide
    | audio => decide
  rcases hrun : (joinSegments (Defaults.effective {}) filmSegments).run [] with f | ⟨r, memo⟩
  · rw [hrun] at hheard
    simp only [heard, Except.map, reduceCtorEq] at hheard
  rw [hrun] at hheard
  refine ⟨offset_lateHalf, r, memo, rfl, hheard, ?_⟩
  intro g hg channel head rest hgroup hrest
  obtain ⟨hdrifts, hvolumes, hrecall⟩ :=
    joinSegments_drifts hrun hsingle exactChecks_filmSegments g hg channel head rest hgroup hrest
  have hrules := hrecall coherent_filmSegments rfl
  have hwithin := within_of_joinAll coherent_filmSegments
    (Segment.within_of_subset (List.Subset.refl _)) (joinAll_of_run hrun) g hg channel
  rw [hgroup] at hwithin
  have hhalves : ∀ c ∈ head :: rest, c ∈ [halves.1, lateHalf] :=
    fun c hc => clips_filmSegments (hwithin c hc)
  refine ⟨hdrifts, ?_, hrules⟩
  intro haudio
  apply hvolumes haudio
  · intro c hc
    obtain ⟨v, hv, hvolume⟩ := exists_volume_filmSegments c (hhalves c hc)
    rw [hrules c hc]
    exact ⟨v.1, hvolume, _, _, place?_halfVolumes v hv, rfl⟩
  · intro p hp n hn a b
    rw [hrules p hp, hrules n hn]
    exact exactVolumes_filmSegments p (hhalves p hp) n (hhalves n hn) a b

/-- Two clips that play a film backwards, by a speed below zero. -/
def rewound : Clip × Clip :=
  ({ id := "first", mediaId := "film", track := 0, start := .int 0, duration := .int 10
     trimStart := some (.int 100), speed := some (.int (-1)) },
    { id := "second", mediaId := "film", track := 0, start := .int 10, duration := .int 10
      trimStart := some (.int 90), speed := some (.int (-1)) })

/-- They are joined without any drift, which still is more than half a millisecond with the speed
added, for this is below zero. -/
theorem heard_rewound :
    heard ((joinSegments (Defaults.effective {})
      [{ start := 0, stop := 10, video := [rewound.1], audio := [rewound.1] },
        { start := 10, stop := 20, video := [rewound.2], audio := [rewound.2] }]).run []) =
          .ok [["first", "second"]] ∧
      rewound.1.playSpeed.Is (-1) ∧ rewound.2.playSpeed.Is (-1) ∧
      ¬|rewound.2.offset (-1) - rewound.1.offset (-1)| ≤ 1 * (1 / 2 + -1) := by
  have hfirst : rewound.1.Counts 0 10 100 (-1) := .of_fields rfl rfl rfl rfl (by decide)
  have hsecond : rewound.2.Counts 10 10 90 (-1) := .of_fields rfl rfl rfl rfl (by decide)
  refine ⟨by decide +kernel, ?_, ?_, ?_⟩
  · rw [hfirst.speed_eq]
    exact Number.is_int (-1)
  · rw [hsecond.speed_eq]
    exact Number.is_int (-1)
  · rw [Clip.offset, Clip.offset, hfirst.start_eq, hfirst.trim_eq, hsecond.start_eq,
      hsecond.trim_eq]
    norm_num [Number.value]

end Montage
