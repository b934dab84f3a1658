import Montage.Proofs.Number.Delay
import Montage.Proofs.Timeline.Canonical
import Montage.Proofs.Timeline.Source

/-!
A timeline on which everything happens later.

When all clips are delayed alike, whoever wins at an instant wins as much later.  The delayed
timeline has the same canonical tiling behind a stretch in which nothing plays, as there is one such
tiling only.
-/

namespace Montage

/-- The clip, so much later on the timeline. -/
def Clip.delayed (k : Int) (c : Clip) : Clip := { c with start := c.start.delayed k }

/-- The segment of the delayed clips. -/
def Segment.delayed (k : Int) (s : Segment) : Segment where
  start := s.start.delayed k
  stop := s.stop.delayed k
  video := s.video.map (Clip.delayed k)
  audio := s.audio.map (Clip.delayed k)

/-- The place, so much later. -/
def Place.delayed (k : Int) : Place → Place
  | .bottom => .bottom
  | .point n => .point (n + k * unitsInOne)
  | .top => .top

@[simp] theorem Clip.id_delayed (k : Int) (c : Clip) : (c.delayed k).id = c.id := rfl

@[simp] theorem Clip.duration_delayed (k : Int) (c : Clip) :
    (c.delayed k).duration = c.duration := rfl

namespace Clip.WholeTimed

variable {c : Clip} {k m n : Int}

theorem start_delayed (h : c.start = .int n) : (c.delayed k).start = .int (n + k) :=
  congrArg (Number.delayed k) h

theorem delayed (h : c.WholeTimed) (hk : 0 ≤ k) : (c.delayed k).WholeTimed := by
  obtain ⟨n, hn, hn0⟩ := h.start
  exact ⟨⟨n + k, start_delayed hn, add_nonneg hn0 hk⟩, h.duration⟩

theorem stop_delayed (h : c.WholeTimed) (hstop : c.stop = .ok (.int n)) :
    (c.delayed k).stop = .ok (.int (n + k)) := by
  obtain ⟨a, ha, -⟩ := h.start
  obtain ⟨d, hd, -⟩ := h.duration
  rw [Clip.stop, ha, hd] at hstop
  obtain rfl : a + d = n := Number.int.inj (Except.ok.inj hstop)
  rw [Clip.stop, start_delayed ha, duration_delayed, hd, add_right_comm]
  rfl

/-- A delayed clip plays when the clip has played so long before. -/
theorem isOn_delayed (h : c.WholeTimed) (t : Instant) :
    (c.delayed k).isOn t = c.isOn (t - k) := by
  obtain ⟨m, n, hm, hn, -, -⟩ := h.exists_times
  rw [Bool.eq_iff_iff, Clip.isOn_int (start_delayed hm) (h.stop_delayed hn), Clip.isOn_int hm hn,
    le_sub_iff_add_le, sub_lt_iff_lt_add]
  push_cast
  rfl

end Clip.WholeTimed

section Winners

variable {sources : Sources} {clips : List Clip} {k : Int}
  (hwhole : ∀ c ∈ clips, c.WholeTimed)
include hwhole

theorem forall_wholeTimed_delayed (hk : 0 ≤ k) :
    ∀ c ∈ clips.map (Clip.delayed k), c.WholeTimed := by
  intro c hc
  obtain ⟨d, hd, rfl⟩ := List.mem_map.1 hc
  exact (hwhole d hd).delayed hk

theorem candidates_delayed (t : Instant) (channel : Channel) :
    candidates sources (clips.map (Clip.delayed k)) t channel =
      (candidates sources clips (t - k) channel).map (Clip.delayed k) := by
  have hon : ∀ c ∈ clips, (c.delayed k).isOn t = c.isOn (t - k) :=
    fun c hc => (hwhole c hc).isOn_delayed t
  cases channel with
  | video =>
      have hpicture : ∀ c : Clip, ((c.delayed k).visible && sources.hasPicture (c.delayed k)) =
          (c.visible && sources.hasPicture c) := fun _ => rfl
      rw [candidates, candidates, List.filter_map]
      exact congrArg _ (List.filter_congr fun c hc => by
        rw [Function.comp_apply, hon c hc, hpicture])
  | audio =>
      rw [candidates, candidates, List.filter_map]
      exact congrArg _ (List.filter_congr hon)

/-- Whoever wins at an instant wins the delayed timeline so much later. -/
theorem winner_delayed (t : Instant) (channel : Channel) :
    topmost? (candidates sources (clips.map (Clip.delayed k)) t channel) =
      (topmost? (candidates sources clips (t - k) channel)).map (Clip.delayed k) := by
  rw [candidates_delayed hwhole]
  exact topmost?_map fun _ _ => rfl

/-- Before the delay is over, nothing plays. -/
theorem candidates_delayed_eq_nil {t : Instant} (ht : t < k) (channel : Channel) :
    candidates sources (clips.map (Clip.delayed k)) t channel = [] := by
  rw [candidates_delayed hwhole, List.map_eq_nil_iff, List.eq_nil_iff_forall_not_mem]
  intro c hc
  obtain ⟨m, n, hm, hn, hm0, -⟩ := (hwhole c (candidates_subset hc)).exists_times
  have hstarted := ((Clip.isOn_int hm hn).1 (isOn_of_mem_candidates hc)).1
  have hnonneg : (0 : ℚ) ≤ m := Int.cast_nonneg hm0
  linarith

end Winners

namespace Place

variable {p q : Place} {k : Int}

theorem delayed_lt_delayed : p.delayed k < q.delayed k ↔ p < q := by
  cases p <;> cases q
  case point.point m n =>
    rw [delayed, delayed, point_lt_point, point_lt_point, add_lt_add_iff_right]
  all_goals rfl

theorem delayed_le_delayed : p.delayed k ≤ q.delayed k ↔ p ≤ q := by
  rw [← not_lt, ← not_lt, delayed_lt_delayed]

end Place

/-- Both ends of a segment are whole times. -/
def Segment.IsWhole (s : Segment) : Prop := ∃ m n : Int, s.start = .int m ∧ s.stop = .int n

namespace Segment

variable {s t : Segment} {k : Int}

theorem run_delayed (s : Segment) (channel : Channel) :
    (s.delayed k).run channel = (s.run channel).map (Clip.delayed k) := by
  cases channel <;> rfl

theorem sameWinners_delayed : (s.delayed k).sameWinners (t.delayed k) = s.sameWinners t := by
  have hwinner : ∀ (u : Segment) channel,
      ((u.delayed k).winner? channel).map Clip.id = (u.winner? channel).map Clip.id := by
    intro u channel
    rw [winner?, run_delayed, List.head?_map, Option.map_map]
    rfl
  simp only [sameWinners, hwinner]

theorem IsWhole.delayed (h : s.IsWhole) : (s.delayed k).IsWhole := by
  obtain ⟨m, n, hm, hn⟩ := h
  exact ⟨m + k, n + k, congrArg (Number.delayed k) hm, congrArg (Number.delayed k) hn⟩

theorem IsWhole.holds_delayed (h : s.IsWhole) (t : Instant) :
    (s.delayed k).holds t = s.holds (t - k) := by
  obtain ⟨m, n, hm, hn⟩ := h
  have hm' : (s.delayed k).start = .int (m + k) := congrArg (Number.delayed k) hm
  have hn' : (s.delayed k).stop = .int (n + k) := congrArg (Number.delayed k) hn
  rw [Bool.eq_iff_iff, holds, holds, hm, hn, hm', hn', Bool.and_eq_true, Bool.and_eq_true,
    Number.reachedAt_int, Number.reachedAt_int, Number.isAfter_int, Number.isAfter_int,
    le_sub_iff_add_le, sub_lt_iff_lt_add]
  push_cast
  rfl

end Segment

theorem Number.place?_delayed {a : Number} {n k : Int} {p : Place} (ha : a = .int n)
    (hp : a.place? = some p) : (a.delayed k).place? = some (p.delayed k) := by
  subst ha
  obtain rfl : Place.point (n * unitsInOne) = p := Option.some.inj hp
  rw [delayed, place?_int, Place.delayed, add_mul]

/-- What leads from one place to another leads, when delayed, from one so much later to the
other. -/
theorem Tiles.delayed {segments : List Segment} {a b : Place} (h : Tiles a b segments)
    (hwhole : ∀ s ∈ segments, s.IsWhole) (k : Int) :
    Tiles (a.delayed k) (b.delayed k) (segments.map (Segment.delayed k)) := by
  induction segments generalizing a with
  | nil => exact congrArg (Place.delayed k) h
  | cons s rest ih =>
      obtain ⟨ha, e, he, hae, hrest⟩ := h
      obtain ⟨⟨m, n, hm, hn⟩, hwhole⟩ := List.forall_mem_cons.1 hwhole
      exact ⟨Number.place?_delayed hm ha, e.delayed k, Number.place?_delayed hn he,
        Place.delayed_lt_delayed.2 hae, ih hrest hwhole⟩

/-- The range from a whole time on. -/
def ExportRange.onward (k : Int) : ExportRange := ⟨.int k, none⟩

theorem ExportRange.spans_onward (k : Int) :
    (onward k).Spans (.point (k * unitsInOne)) .top :=
  ⟨Number.place?_int k, fun x hx => absurd hx (Option.not_mem_none x), fun _ => rfl⟩

namespace IsBound

variable {clips : List Clip} {x : Number} {k n : Int}
  (hwhole : ∀ c ∈ clips, c.WholeTimed)
include hwhole

/-- Delayed clips have their boundaries so much later, and the one at zero. -/
theorem delayed_iff : IsBound (clips.map (Clip.delayed k)) x ↔
    x = 0 ∨ ∃ c ∈ clips, ∃ n : Int,
      (c.start = .int n ∨ c.stop = .ok (.int n)) ∧ x = .int (n + k) := by
  apply or_congr_right
  constructor
  · rintro ⟨d, hd, hx⟩
    obtain ⟨c, hc, rfl⟩ := List.mem_map.1 hd
    obtain ⟨m, n, hm, hn, -, -⟩ := (hwhole c hc).exists_times
    refine ⟨c, hc, ?_⟩
    rcases hx with rfl | hx
    · exact ⟨m, Or.inl hm, Clip.WholeTimed.start_delayed hm⟩
    · rw [(hwhole c hc).stop_delayed hn] at hx
      exact ⟨n, Or.inr hn, (Except.ok.inj hx).symm⟩
  · rintro ⟨c, hc, n, hn | hn, rfl⟩
    · exact ⟨_, List.mem_map_of_mem hc, Or.inl (Clip.WholeTimed.start_delayed hn).symm⟩
    · exact ⟨_, List.mem_map_of_mem hc, Or.inr ((hwhole c hc).stop_delayed hn)⟩

end IsBound

section Resolution

variable {sources : Sources} {clips : List Clip} {segments segments' : List Segment} {b b' : Place}
  {k : Int} (hwhole : ∀ c ∈ clips, c.WholeTimed)
include hwhole

theorem Resolution.isWhole (h : Resolution sources clips segments b) :
    ∀ s ∈ segments, s.IsWhole := by
  intro s hs
  obtain ⟨m, hm⟩ := (h.resolved s hs).start_bound.exists_int hwhole
  obtain ⟨n, hn⟩ := (h.resolved s hs).stop_bound.exists_int hwhole
  exact ⟨m, n, hm, hn⟩

/-- The delayed timeline ends so much later. -/
theorem Resolution.end_delayed (hk : 0 ≤ k) (h : Resolution sources clips segments b)
    (h' : Resolution sources (clips.map (Clip.delayed k)) segments' b') :
    max (.point (k * unitsInOne)) b' = b.delayed k := by
  have hzero : Place.delayed k (.point 0) = .point (k * unitsInOne) :=
    congrArg Place.point (zero_add _)
  have hstart : Place.point (k * unitsInOne) ≤ b.delayed k := by
    rw [← hzero, Place.delayed_le_delayed]
    exact h.tiles.le
  apply le_antisymm
  · refine max_le hstart ?_
    obtain ⟨x, hx, hxb⟩ := h'.bound
    obtain rfl | ⟨c, hc, n, hn, rfl⟩ := (IsBound.delayed_iff hwhole).1 hx
    · rw [Number.place?_zero, Option.some.injEq] at hxb
      rw [← hxb]
      refine le_trans ?_ hstart
      exact Place.point_le_point.2 (mul_nonneg hk Number.units_pos.le)
    · obtain ⟨q, hq, hqb⟩ := h.bound_le (.int n) (Or.inr ⟨c, hc, hn.imp_left Eq.symm⟩)
      have hlater := Number.place?_delayed (k := k) rfl hq
      obtain rfl : q.delayed k = b' := Option.some.inj (hlater.symm.trans hxb)
      exact Place.delayed_le_delayed.2 hqb
  · obtain ⟨x, hx, hxb⟩ := h.bound
    obtain ⟨n, rfl⟩ := hx.exists_int hwhole
    have hlater := Number.place?_delayed (k := k) rfl hxb
    rcases hx with hx | ⟨c, hc, hx⟩
    · obtain rfl : n = 0 := Number.int.inj hx
      rw [Number.place?_int, zero_mul, Option.some.injEq] at hxb
      rw [← hxb, hzero]
      exact le_max_left _ _
    · obtain ⟨q, hq, hqb⟩ := h'.bound_le (.int (n + k))
        ((IsBound.delayed_iff hwhole).2 (Or.inr ⟨c, hc, n, hx.imp_left Eq.symm, rfl⟩))
      obtain rfl : b.delayed k = q := Option.some.inj (hlater.symm.trans hq)
      exact le_max_of_le_right hqb

/-- Behind a stretch in which nothing plays, the delayed timeline has the segments of the timeline,
delayed. -/
theorem Resolution.clip_delayed (hk : 0 ≤ k) (h : Resolution sources clips segments b)
    (h' : Resolution sources (clips.map (Clip.delayed k)) segments' b')
    (hdiffers : segments.IsChain fun s t => s.sameWinners t = false)
    (hdiffers' : segments'.IsChain fun s t => s.sameWinners t = false) :
    (ExportRange.onward k).clip segments' = segments.map (Segment.delayed k) := by
  have hspans := ExportRange.spans_onward k
  have hnonneg : Place.point 0 ≤ .point (k * unitsInOne) :=
    Place.point_le_point.2 (mul_nonneg hk Number.units_pos.le)
  have hzero : Place.delayed k (.point 0) = .point (k * unitsInOne) :=
    congrArg Place.point (zero_add _)
  have htiles := h.tiles.delayed (h.isWhole hwhole) k
  have htiles' := ExportRange.clip_tiles hspans h'.tiles
  rw [max_eq_right hnonneg, min_eq_left (Place.le_top b'), h.end_delayed hwhole hk h'] at htiles'
  rw [hzero] at htiles
  have hplays := h'.playsWinners_clip hspans
  have hplays' : ∀ u ∈ segments.map (Segment.delayed k),
      PlaysWinners sources (clips.map (Clip.delayed k)) u := by
    intro u hu t ht channel
    obtain ⟨v, hv, rfl⟩ := List.mem_map.1 hu
    rw [(h.isWhole hwhole v hv).holds_delayed] at ht
    rw [Segment.run_delayed, (h.resolved v hv).plays _ ht, winner_delayed hwhole]
    exact Option.toList_map.symm
  have hdelayed : (segments.map (Segment.delayed k)).IsChain Segment.Differs := by
    refine List.isChain_map_of_isChain _ ?_ hdiffers
    intro s t hst
    exact Segment.differs_of_sameWinners_eq_false (Segment.sameWinners_delayed.trans hst)
  refine Segment.eq_of_sameSlots (htiles'.forall₂_sameSlot htiles hnonneg hplays hplays'
    (ExportRange.clip_isChain_differs hspans h'.tiles hdiffers') hdelayed) ?_ ?_
  · intro u hu
    obtain ⟨v, hv, rfl⟩ := List.mem_map.1 (List.mem_of_mem_filter hu)
    obtain ⟨m, n, hm, hn⟩ := h'.isWhole (forall_wholeTimed_delayed hwhole hk) v hv
    rw [ExportRange.cut, hm, Number.max]
    split
    · exact ⟨k, n, rfl, hn⟩
    · exact ⟨m, n, rfl, hn⟩
  · intro u hu
    obtain ⟨v, hv, rfl⟩ := List.mem_map.1 hu
    exact (h.isWhole hwhole v hv).delayed

/-- What begins before the delay is over has nothing to play. -/
theorem Resolution.run_eq_nil_of_early
    (h' : Resolution sources (clips.map (Clip.delayed k)) segments' b') :
    ∀ s ∈ segments', s.start.lt (.int k) = true → ∀ channel, s.run channel = [] := by
  intro s hs hearly channel
  obtain ⟨p, e, hp, he, hp0, hpe, -⟩ := h'.tiles.places_of_mem hs
  rw [Number.lt_iff hp (Number.place?_int k)] at hearly
  obtain ⟨t, -, hpt, ht⟩ := exists_instant hp0 (lt_min hpe hearly)
  obtain ⟨hte, htk⟩ := lt_min_iff.1 ht
  have hbefore : t < k :=
    Number.isAfter_int.1 ((Number.isAfter_iff (Number.place?_int k)).2 htk)
  rw [(h'.resolved s hs).plays t ((Segment.holds_iff hp he).2 ⟨hpt, hte⟩),
    candidates_delayed_eq_nil hwhole hbefore]
  rfl

end Resolution

/-- Two ranges between whole times, the second so much later. -/
structure ExportRange.DelayedBy (k : Int) (r r' : ExportRange) : Prop where
  start : r.start.DelayedBy k r'.start
  stop : Option.Rel (Number.DelayedBy k) r.stop r'.stop

/-- Two segments of which the second plays the same so much later.  Where nothing plays, the starts
need not be of one kind. -/
structure Segment.DelayedBy (k : Int) (s s' : Segment) : Prop where
  start : ∃ n : Int, s.start.Is n ∧ s'.start.Is ((n + k : Int) : ℚ)
  stop : s.stop.DelayedBy k s'.stop
  run_eq : ∀ channel, s'.run channel = (s.run channel).map (Clip.delayed k)
  kind : ∀ channel, s.run channel ≠ [] → s.start.DelayedBy k s'.start

/-- The later segment is over at its start just when the other one is. -/
theorem Segment.DelayedBy.le_eq {k : Int} {s s' : Segment} (h : s.DelayedBy k s') :
    s'.stop.le s'.start = s.stop.le s.start := by
  obtain ⟨m, hm, hm'⟩ := h.start
  obtain ⟨n, hn, hn'⟩ := h.stop.exists_is
  rw [Bool.eq_iff_iff, Number.le_iff_of_is hn hm, Number.le_iff_of_is hn' hm',
    add_le_add_iff_right]

namespace ExportRange

variable {k first m n : Int} {r r' : ExportRange} {s s' : Segment}

theorem DelayedBy.exists_spans (h : r.DelayedBy k r') :
    (∃ p e, r.Spans p e) ∧ ∃ p e, r'.Spans p e := by
  obtain ⟨n, hn, hn'⟩ := h.start.exists_is
  rw [Number.is_whole_iff] at hn hn'
  obtain ⟨start, stop⟩ := r
  obtain ⟨start', stop'⟩ := r'
  obtain ⟨-, hstop⟩ := h
  cases hstop with
  | none =>
      have hnone : ∀ x ∈ (none : Option Number), x.place? = some .top :=
        fun x hx => absurd hx (Option.not_mem_none x)
      exact ⟨⟨_, .top, hn, hnone, fun _ => rfl⟩, _, .top, hn', hnone, fun _ => rfl⟩
  | @some x x' hlast =>
      obtain ⟨m, hm, hm'⟩ := hlast.exists_is
      rw [Number.is_whole_iff] at hm hm'
      have hsome : ∀ {y : Number} {p : Place}, y.place? = some p →
          ∀ z ∈ some y, z.place? = some p :=
        fun hy z hz => Option.some.inj hz ▸ hy
      exact ⟨⟨_, _, hn, hsome hm, fun h => absurd h (Option.some_ne_none x)⟩,
        _, _, hn', hsome hm', fun h => absurd h (Option.some_ne_none x')⟩

/-- Nothing is left of a segment that is over when the range begins. -/
theorem Spans.cut_le {p e a b : Place} (h : r.Spans p e) (ha : s.start.place? = some a)
    (hb : s.stop.place? = some b) (hbp : b ≤ p) :
    (r.cut s).stop.le (r.cut s).start = true := by
  rw [Number.le_iff (cut_stop h hb) (cut_start h ha)]
  exact (min_le_left b e).trans (hbp.trans (le_max_right a p))

theorem Spans.clip_cons_of_le {p e a b : Place} (h : r.Spans p e) (ha : s.start.place? = some a)
    (hb : s.stop.place? = some b) (hbp : b ≤ p) (rest : List Segment) :
    r.clip (s :: rest) = r.clip rest := by
  rw [clip_cons, if_pos (h.cut_le ha hb hbp)]

/-- A segment that is over by a whole time at which the range begins. -/
theorem Spans.clip_cons_of_int_le {p e a : Place} (h : r.Spans p e) (hfirst : r.start.Is first)
    (ha : s.start.place? = some a) (hn : s.stop = .int n) (hle : n ≤ first)
    (rest : List Segment) : r.clip (s :: rest) = r.clip rest := by
  obtain rfl : Place.point (first * unitsInOne) = p :=
    Option.some.inj ((Number.is_whole_iff.1 hfirst).symm.trans h.start_eq)
  apply h.clip_cons_of_le ha (hn ▸ Number.place?_int n)
  exact Place.point_le_point.2 (mul_le_mul_of_nonneg_right hle Number.units_pos.le)

theorem le_of_onward_over {a b : Place} (ha : s.start.place? = some a)
    (hb : s.stop.place? = some b) (hab : a < b) (hn : s.stop = .int n)
    (hover : ((onward k).cut s).stop.le ((onward k).cut s).start = true) : n ≤ k := by
  rw [Number.le_iff (cut_stop (spans_onward k) hb) (cut_start (spans_onward k) ha),
    min_eq_left (Place.le_top b), le_max_iff, or_iff_right (not_le.2 hab)] at hover
  rw [hn, Number.place?_int, Option.some.injEq] at hb
  rw [← hb, Place.point_le_point] at hover
  exact le_of_mul_le_mul_right hover Number.units_pos

section Ranges

variable (hr : r.DelayedBy k r') (hfirst : r.start.Is first)
  (hfirst' : r'.start.Is ((first + k : Int) : ℚ))
include hr

theorem DelayedBy.stop_cut (h : s.stop.DelayedBy k s'.stop) :
    (r.cut s).stop.DelayedBy k (r'.cut s').stop := by
  obtain ⟨start, stop⟩ := r
  obtain ⟨start', stop'⟩ := r'
  cases hr.stop with
  | none => exact h
  | some hlast => exact h.min hlast

include hfirst hfirst'

theorem DelayedBy.start_cut (hm : s.start = .int m) (hm' : s'.start = .int (m + k))
    (hexact : first ≤ m → Number.StaysExact k m) :
    (r.cut s).start.DelayedBy k (r'.cut s').start := by
  rw [ExportRange.cut, ExportRange.cut, hm, hm']
  by_cases hbefore : m < first
  · rw [Number.max_eq_right_of_is (Number.is_int m) hfirst hbefore,
      Number.max_eq_right_of_is (Number.is_int _) hfirst' (by omega)]
    exact hr.start
  · exact (Number.DelayedBy.int (hexact (not_lt.1 hbefore))).max hr.start

/-- What the range leaves of a segment of the delayed timeline, and what the range leaves of the
segment if it is not over before. -/
theorem DelayedBy.cut (hnonneg : 0 ≤ first) (h : (onward k).cut s' = s.delayed k)
    (hm : s.start = .int m) (hn : s.stop = .int n)
    (hlast : first < n) (hexact : ∀ x, x = m ∨ x = n → first ≤ x → Number.StaysExact k x)
    {m' : Int} (hm' : s'.start = .int m') (hgap : m' < k → ∀ channel, s'.run channel = []) :
    Segment.DelayedBy k (r.cut s) (r'.cut s') := by
  have hrun : ∀ channel, s'.run channel = (s.run channel).map (Clip.delayed k) := by
    intro channel
    rw [← Segment.run_delayed, ← h, run_cut]
  have hruns : ∀ channel,
      (r'.cut s').run channel = ((r.cut s).run channel).map (Clip.delayed k) := by
    intro channel
    rw [run_cut, run_cut, hrun]
  have hstop : s'.stop = .int (n + k) :=
    (congrArg Segment.stop h).trans (congrArg (Number.delayed k) hn)
  have hstops : (r.cut s).stop.DelayedBy k (r'.cut s').stop := by
    apply hr.stop_cut
    rw [hn, hstop]
    exact .int (hexact n (Or.inr rfl) hlast.le)
  have hstart : (Number.int m').max (.int k) = .int (m + k) := by
    rw [← hm']
    exact (congrArg Segment.start h).trans (congrArg (Number.delayed k) hm)
  by_cases hearly : m' < k
  · -- nothing plays before the delay is over, and this is where the segment begins
    obtain rfl : m = 0 := by
      rw [Number.max_eq_right_of_is (Number.is_int m') (Number.is_int k) hearly,
        Number.int.injEq] at hstart
      omega
    refine ⟨⟨first, ?_, ?_⟩, hstops, hruns, ?_⟩
    · rw [ExportRange.cut, hm]
      exact (Number.is_int 0).max_right hfirst hnonneg
    · rw [ExportRange.cut, hm']
      exact (Number.is_int m').max_right hfirst' (by omega)
    · intro channel hne
      have hnil := hrun channel
      rw [hgap hearly channel, eq_comm, List.map_eq_nil_iff] at hnil
      rw [run_cut] at hne
      exact absurd hnil hne
  · obtain rfl : m' = m + k := by
      have hlt : ¬(Number.int m').lt (.int k) = true := by rwa [Number.int_lt_int]
      rw [Number.max, if_neg hlt, Number.int.injEq] at hstart
      exact hstart
    have hstarts := hr.start_cut hfirst hfirst' hm hm' (hexact m (Or.inl rfl))
    exact ⟨hstarts.exists_is, hstops, hruns, fun _ _ => hstarts⟩

/-- Cut to a range that begins when the delay is over or later, the delayed timeline plays what the
timeline does in the range. -/
theorem DelayedBy.clip (hnonneg : 0 ≤ first)
    {segments segments' : List Segment} {a b : Place} (htiles : Tiles a b segments')
    (hdelayed : (onward k).clip segments' = segments.map (Segment.delayed k))
    (hwhole : ∀ s ∈ segments, s.IsWhole) (hwhole' : ∀ s ∈ segments', s.IsWhole)
    (hexact : ∀ s ∈ segments, ∀ x : Int, s.start = .int x ∨ s.stop = .int x → first ≤ x →
      Number.StaysExact k x)
    (hgap : ∀ s ∈ segments', s.start.lt (.int k) = true → ∀ channel, s.run channel = []) :
    List.Forall₂ (Segment.DelayedBy k) (r.clip segments) (r'.clip segments') := by
  obtain ⟨⟨p, e, hspans⟩, p', e', hspans'⟩ := hr.exists_spans
  induction segments' generalizing segments a with
  | nil =>
      rw [List.map_eq_nil_iff.1 hdelayed.symm]
      exact .nil
  | cons s' rest' ih =>
      obtain ⟨ha, q, hq, haq, hrest'⟩ := htiles
      obtain ⟨⟨m', n', hm', hn'⟩, hwhole'⟩ := List.forall_mem_cons.1 hwhole'
      obtain ⟨hgap, hgap'⟩ := List.forall_mem_cons.1 hgap
      rw [clip_cons] at hdelayed
      by_cases hover : ((onward k).cut s').stop.le ((onward k).cut s').start = true
      · -- the segment is over before the delay is, and so before the range begins
        have hle := le_of_onward_over ha hq haq hn' hover
        rw [if_pos hover] at hdelayed
        rw [hspans'.clip_cons_of_int_le hfirst' ha hn' (by omega)]
        exact ih hrest' hdelayed hwhole hwhole' hexact hgap'
      · rw [if_neg hover] at hdelayed
        obtain ⟨s, rest, rfl, hcut, hdelayed⟩ := List.map_eq_cons_iff.1 hdelayed.symm
        obtain ⟨⟨m, n, hm, hn⟩, hwhole⟩ := List.forall_mem_cons.1 hwhole
        obtain ⟨hexact, hexact'⟩ := List.forall_mem_cons.1 hexact
        have hlater := ih hrest' hdelayed.symm hwhole hwhole' hexact' hgap'
        by_cases hlast : first < n
        · have hsegment : Segment.DelayedBy k (r.cut s) (r'.cut s') := by
            refine hr.cut hfirst hfirst' hnonneg hcut.symm hm hn hlast ?_ hm' ?_
            · rintro x (rfl | rfl)
              · exact hexact x (Or.inl hm)
              · exact hexact x (Or.inr hn)
            · intro hlt
              exact hgap (hm' ▸ Number.int_lt_int.2 hlt)
          rw [clip_cons, clip_cons, hsegment.le_eq]
          by_cases hle : (r.cut s).stop.le (r.cut s).start = true
          · rwa [if_pos hle, if_pos hle]
          · rw [if_neg hle, if_neg hle]
            exact .cons hsegment hlater
        · have hstop : s'.stop = .int (n + k) :=
            (congrArg Segment.stop hcut.symm).trans (congrArg (Number.delayed k) hn)
          rw [hspans.clip_cons_of_int_le hfirst (hm ▸ Number.place?_int m) hn (not_lt.1 hlast),
            hspans'.clip_cons_of_int_le hfirst' ha hstop (by omega)]
          exact hlater

end Ranges

end ExportRange

end Montage
