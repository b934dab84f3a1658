import Mathlib.Tactic.Linarith
import Mathlib.Tactic.Ring
import Montage.Proofs.Number.Finite
import Montage.Proofs.Timeline.Recall
import Montage.Proofs.Timeline.Run

/-!
The source time that a clip plays at an instant.

For clips whose times are whole numbers, all times are exact and the tolerances of a joint leave no
room: two clips without a seam between them play their source by one and the same line, before the
seam and after it.
-/

namespace Montage

/-- The time of its source that a clip plays at an instant. A reversed clip
plays its source from the end. -/
def Clip.sourceAt (c : Clip) (t : Instant) : ℚ :=
  let offset := t - c.start.value
  let played := if c.reversed then c.duration.value - offset else offset
  c.trim.value + played * c.playSpeed.value

/-- A clip whose times and speed are whole numbers. -/
structure Clip.Whole (c : Clip) : Prop where
  start : ∃ n : Int, c.start = .int n ∧ 0 ≤ n
  duration : ∃ n : Int, c.duration = .int n ∧ 0 < n
  trim : ∃ n : Int, c.trim = .int n
  speed : ∃ n : Int, c.playSpeed = .int n ∧ 1 ≤ n

/-- A clip that starts at a whole time and lasts for one. -/
structure Clip.WholeTimed (c : Clip) : Prop where
  start : ∃ n : Int, c.start = .int n ∧ 0 ≤ n
  duration : ∃ n : Int, c.duration = .int n ∧ 0 < n

namespace Clip.WholeTimed

variable {c : Clip}

theorem wellTimed (h : c.WholeTimed) : c.WellTimed := by
  obtain ⟨m, hm, hm0⟩ := h.start
  obtain ⟨n, hn, hn0⟩ := h.duration
  refine ⟨?_, ?_⟩
  · rw [hm]
    exact Number.zero_le_int.2 hm0
  · rw [hn]
    exact Number.zero_lt_int.2 hn0

/-- The end is exact, so it comes after the start. -/
theorem exists_times (h : c.WholeTimed) :
    ∃ m n, c.start = .int m ∧ c.stop = .ok (.int n) ∧ 0 ≤ m ∧ m < n := by
  obtain ⟨m, hm, hm0⟩ := h.start
  obtain ⟨n, hn, hn0⟩ := h.duration
  exact ⟨m, m + n, hm, by rw [Clip.stop, hm, hn]; rfl, hm0, lt_add_of_pos_right m hn0⟩

theorem stop_eq (h : c.WholeTimed) :
    ∃ n, c.stop = .ok (.int n) ∧ c.start.lt (.int n) = true := by
  obtain ⟨m, n, hm, hn, -, hlt⟩ := h.exists_times
  exact ⟨n, hn, by rw [hm, Number.int_lt_int]; exact hlt⟩

end Clip.WholeTimed

/-- The ends of whole clips are known. -/
theorem exists_stops_of_wholeTimed {clips : List Clip}
    (hwhole : ∀ c ∈ clips, c.WholeTimed) :
    ∃ stops, clips.mapM Clip.stop = .ok stops := by
  refine exists_mapM ?_
  intro c hc
  obtain ⟨e, he, -⟩ := (hwhole c hc).stop_eq
  exact ⟨_, he⟩

/-- The boundaries of whole clips are whole. -/
theorem IsBound.exists_int {clips : List Clip} {x : Number}
    (h : IsBound clips x) (hwhole : ∀ c ∈ clips, c.WholeTimed) :
    ∃ k : Int, x = .int k := by
  rcases h with rfl | ⟨c, hc, rfl | he⟩
  · exact ⟨0, rfl⟩
  · obtain ⟨k, hk, -⟩ := (hwhole c hc).start
    exact ⟨k, hk⟩
  · obtain ⟨k, hk, -⟩ := (hwhole c hc).stop_eq
    exact ⟨k, Except.ok.inj (he.symm.trans hk)⟩

namespace Clip.Whole

variable {c : Clip}

theorem wholeTimed (h : c.Whole) : c.WholeTimed := ⟨h.start, h.duration⟩

theorem wellTimed (h : c.Whole) : c.WellTimed := h.wholeTimed.wellTimed

theorem stop_eq (h : c.Whole) : ∃ n, c.stop = .ok (.int n) :=
  h.wholeTimed.stop_eq.imp fun _ => And.left

end Clip.Whole

/-- The times and the speed of a clip are these whole numbers. -/
structure Clip.Counts (c : Clip) (start length trim speed : Int) : Prop where
  start_eq : c.start = .int start
  duration_eq : c.duration = .int length
  trim_eq : c.trim = .int trim
  speed_eq : c.playSpeed = .int speed

namespace Clip.Counts

variable {c : Clip} {start length trim speed : Int}

theorem unique {start' length' trim' speed' : Int} (h : c.Counts start length trim speed)
    (h' : c.Counts start' length' trim' speed') :
    start = start' ∧ length = length' ∧ trim = trim' ∧ speed = speed' :=
  ⟨Number.int.inj (h.start_eq.symm.trans h'.start_eq),
    Number.int.inj (h.duration_eq.symm.trans h'.duration_eq),
    Number.int.inj (h.trim_eq.symm.trans h'.trim_eq),
    Number.int.inj (h.speed_eq.symm.trans h'.speed_eq)⟩

theorem of_fields (hstart : c.start = .int start) (hlength : c.duration = .int length)
    (htrim : c.trimStart = some (.int trim)) (hspeed : c.speed = some (.int speed))
    (hne : speed ≠ 0) : c.Counts start length trim speed := by
  have hzero : (Number.int speed).isZero = false := Bool.eq_false_iff.2 (mt Number.int_eq_int.1 hne)
  constructor
  case start_eq => exact hstart
  case duration_eq => exact hlength
  case speed_eq => simp only [Clip.playSpeed, hspeed, hzero, Bool.false_eq_true, ↓reduceIte]
  case trim_eq =>
    simp only [Clip.trim, htrim]
    split
    · next h => rw [Number.int_eq_int.1 h]; rfl
    · rfl

theorem stop_eq (h : c.Counts start length trim speed) :
    c.stop = .ok (.int (start + length)) := by
  rw [Clip.stop, h.start_eq, h.duration_eq]
  rfl

theorem mul_eq (h : c.Counts start length trim speed) :
    c.duration.mul c.playSpeed = .ok (.int (length * speed)) := by
  rw [h.duration_eq, h.speed_eq]
  rfl

theorem add_eq (h : c.Counts start length trim speed) (n : Int) :
    c.trim.add (.int n) = .ok (.int (trim + n)) := by
  rw [h.trim_eq]
  rfl

theorem sourceAt_forward (h : c.Counts start length trim speed) (hforward : c.reversed = false)
    (t : Instant) : c.sourceAt t = trim + (t - start) * speed := by
  rw [sourceAt, hforward, h.start_eq, h.trim_eq, h.speed_eq]
  rfl

theorem sourceAt_reversed (h : c.Counts start length trim speed) (hreversed : c.reversed = true)
    (t : Instant) : c.sourceAt t = trim + (length - (t - start)) * speed := by
  rw [sourceAt, hreversed, h.start_eq, h.duration_eq, h.trim_eq, h.speed_eq]
  rfl

end Clip.Counts

theorem Clip.Whole.exists_counts {c : Clip} (h : c.Whole) :
    ∃ start length trim speed, c.Counts start length trim speed := by
  obtain ⟨start, hstart, -⟩ := h.start
  obtain ⟨length, hlength, -⟩ := h.duration
  obtain ⟨trim, htrim⟩ := h.trim
  obtain ⟨speed, hspeed, -⟩ := h.speed
  exact ⟨start, length, trim, speed, hstart, hlength, htrim, hspeed⟩

theorem halves_whole : halves.1.Whole ∧ halves.2.Whole :=
  ⟨⟨⟨0, rfl, by decide⟩, ⟨1000, rfl, by decide⟩, ⟨0, by decide +kernel⟩,
      ⟨1, by decide +kernel, le_rfl⟩⟩,
    ⟨⟨1000, rfl, by decide⟩, ⟨1000, rfl, by decide⟩, ⟨1000, by decide +kernel⟩,
      ⟨1, by decide +kernel, le_rfl⟩⟩⟩

/-- The tolerance of times is half of one. -/
theorem place?_timeTolerance :
    ∃ half : Nat, 0 < half ∧ unitsInOne = 2 * half ∧
      timeTolerance.place? = some (.point half) :=
  ⟨2 ^ 1073, Nat.two_pow_pos 1073, by decide +kernel, by decide +kernel⟩

/-- Whole times are close only when they are equal. -/
theorem closeTimes_int (m n : Int) :
    closeTimes (.int m) (.int n) = .ok (decide (m = n)) := by
  obtain ⟨half, hpos, hunits, hhalf⟩ := place?_timeTolerance
  simp only [closeTimes, closeWithin, Number.distance, Number.sub, Number.abs,
    bind, Except.bind, pure, Except.pure, Except.ok.injEq]
  rw [Bool.eq_iff_iff, decide_eq_true_eq,
    Number.le_iff (Number.place?_int _) hhalf, Place.point_le_point, hunits]
  constructor
  · intro hle
    by_contra hne
    have hone : 1 ≤ (m - n).natAbs := by omega
    have hmul := Nat.mul_le_mul_right (2 * half) hone
    have hle' : (m - n).natAbs * (2 * half) ≤ half := by exact_mod_cast hle
    omega
  · rintro rfl
    simp

/-- What it takes to be without a seam. -/
theorem seamless_cases {p n : Clip} {boundary : Number}
    (h : seamless p n boundary = .ok true) :
    p.mediaId = n.mediaId ∧ p.playSpeed.eq n.playSpeed = true ∧
      p.reversed = false ∧ n.reversed = false ∧
      (∃ e, p.stop = .ok e ∧ closeTimes e boundary = .ok true) ∧
      closeTimes n.start boundary = .ok true ∧
      ∃ d m, p.duration.mul p.playSpeed = .ok d ∧ p.trim.add d = .ok m ∧
        closeTimes m n.trim = .ok true := by
  simp only [seamless, refuse_eq_ok, bind_eq_ok, bne_iff_ne, ne_eq, not_not,
    Bool.not_eq_true', Bool.not_eq_false, Bool.or_eq_true, not_or,
    Bool.not_eq_true] at h
  obtain ⟨hmedia, hspeed, ⟨hp, hn⟩, e, he, near, hnear, h⟩ := h
  obtain ⟨rfl, near', hnear', rfl, d, hd, m, hm, h⟩ := h
  exact ⟨hmedia, hspeed, hp, hn, ⟨e, he, hnear⟩, hnear', d, m, hd, hm, h⟩

/-- A clip ends at a time of the timeline, and at a time of its source. -/
def Clip.EndsAt (c : Clip) (m z : Int) : Prop :=
  ∃ start length trim speed, c.Counts start length trim speed ∧
    start + length = m ∧ trim + length * speed = z

/-- A clip starts at a time of the timeline, and at a time of its source. -/
def Clip.StartsAt (c : Clip) (m z : Int) : Prop := c.start = .int m ∧ c.trim = .int z

namespace Clip.Counts

variable {c : Clip} {start length trim speed m z : Int}

theorem endsAt_iff (h : c.Counts start length trim speed) :
    c.EndsAt m z ↔ start + length = m ∧ trim + length * speed = z := by
  constructor
  · rintro ⟨start', length', trim', speed', h', hm, hz⟩
    obtain ⟨rfl, rfl, rfl, rfl⟩ := h.unique h'
    exact ⟨hm, hz⟩
  · rintro ⟨hm, hz⟩
    exact ⟨start, length, trim, speed, h, hm, hz⟩

theorem startsAt_iff (h : c.Counts start length trim speed) :
    c.StartsAt m z ↔ start = m ∧ trim = z := by
  rw [StartsAt, h.start_eq, h.trim_eq, Number.int.injEq, Number.int.injEq]

end Clip.Counts

section Seams

variable {p n : Clip}

/-- Between whole clips it is known whether there is a seam. -/
theorem exists_seamless (hp : p.Whole) (hn : n.Whole) (k : Int) :
    ∃ b, seamless p n (.int k) = .ok b := by
  obtain ⟨a, d, x, v, hp⟩ := hp.exists_counts
  obtain ⟨b, l, y, w, hn⟩ := hn.exists_counts
  have hstart : closeTimes n.start (.int k) = .ok (decide (b = k)) := by
    rw [hn.start_eq, closeTimes_int]
  have hsource : closeTimes (.int (x + d * v)) n.trim = .ok (decide (x + d * v = y)) := by
    rw [hn.trim_eq, closeTimes_int]
  refine exists_refuse (exists_refuse (exists_refuse ?_))
  refine exists_bind hp.stop_eq (exists_bind (closeTimes_int _ k) (exists_refuse ?_))
  refine exists_bind hstart (exists_refuse ?_)
  exact exists_bind hp.mul_eq (exists_bind (hp.add_eq _) ⟨_, hsource⟩)

/-- What it takes for whole clips to be without a seam. -/
theorem seamless_iff (hp : p.Whole) (hn : n.Whole) {m : Int} :
    seamless p n (.int m) = .ok true ↔ p.mediaId = n.mediaId ∧ p.playSpeed = n.playSpeed ∧
      p.reversed = false ∧ n.reversed = false ∧ ∃ z, p.EndsAt m z ∧ n.StartsAt m z := by
  obtain ⟨a, d, x, v, hp⟩ := hp.exists_counts
  obtain ⟨b, -, y, w, hb, -, hy, hw⟩ := hn.exists_counts
  have hspeed : p.playSpeed.eq n.playSpeed = true ↔ p.playSpeed = n.playSpeed := by
    rw [hp.speed_eq, hw, Number.int_eq_int, Number.int.injEq]
  have hplaces : (∃ z, p.EndsAt m z ∧ n.StartsAt m z) ↔ a + d = m ∧ b = m ∧ x + d * v = y := by
    simp only [hp.endsAt_iff, Clip.StartsAt, hb, hy, Number.int.injEq]
    constructor
    · rintro ⟨z, ⟨hend, hz⟩, hstart, rfl⟩
      exact ⟨hend, hstart, hz⟩
    · rintro ⟨hend, hstart, hz⟩
      exact ⟨y, ⟨hend, hz⟩, hstart, rfl⟩
  rw [hplaces]
  simp only [seamless, refuse_eq_ok, bind_eq_ok, hp.stop_eq, closeTimes_int, hb, hp.mul_eq,
    hp.add_eq, hy, Except.ok.injEq, exists_eq_left', bne_iff_ne, ne_eq, not_not, Bool.not_eq_true',
    Bool.not_eq_false, hspeed, Bool.or_eq_true, not_or, Bool.not_eq_true, decide_eq_true_eq,
    and_assoc]

/-- Whole clips without a seam between them play their source by one line. -/
theorem sourceAt_eq_of_seamless (hp : p.Whole) (hn : n.Whole) {k : Int}
    (h : seamless p n (.int k) = .ok true) (t : Instant) :
    p.sourceAt t = n.sourceAt t := by
  obtain ⟨-, hspeed, hforward, hforward', z, hends, hstarts⟩ := (seamless_iff hp hn).1 h
  obtain ⟨a, d, x, v, hp⟩ := hp.exists_counts
  obtain ⟨b, l, y, w, hn⟩ := hn.exists_counts
  obtain ⟨rfl, rfl⟩ := hp.endsAt_iff.1 hends
  obtain ⟨rfl, rfl⟩ := hn.startsAt_iff.1 hstarts
  rw [hp.speed_eq, hn.speed_eq, Number.int.injEq] at hspeed
  rw [hp.sourceAt_forward hforward, hn.sourceAt_forward hforward', hspeed]
  push_cast
  ring

end Seams

end Montage
