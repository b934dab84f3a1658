import Mathlib.Tactic.FieldSimp
import Montage.Proofs.Export.Determined
import Montage.Proofs.Number.Fits

/-!
How long the planned segments are.

Inside the range they follow each other from the start of the range to the end of the export,
whatever the clips cover and wherever they are joined, so their lengths sum to the whole.
-/

namespace Montage

theorem exists_closeTimes {a b : Number} (ha : a.Fits) (hb : b.Fits) :
    ∃ near, closeTimes a b = .ok near := by
  obtain ⟨c, hc⟩ := Number.exists_sub ha hb
  refine exists_bind (a := c.abs) ?_ ⟨_, rfl⟩
  rw [Number.distance, hc]
  rfl

namespace Segment

/-- The exact length of a segment. -/
def length (s : Segment) : ℚ := s.stop.value - s.start.value

end Segment

/-- Segments that lead from one point to another are as long as the way. -/
theorem Tiles.sum_length {segments : List Segment} {m n : Int}
    (h : Tiles (.point m) (.point n) segments) :
    (segments.map Segment.length).sum = (n - m : ℚ) / unitsInOne := by
  induction segments generalizing m with
  | nil =>
      obtain rfl : m = n := Place.point.inj h
      rw [List.map_nil, List.sum_nil, sub_self, zero_div]
  | cons s rest ih =>
      obtain ⟨hstart, e, hstop, hlt, hrest⟩ := h
      have hle := hrest.le
      cases e with
      | bottom => exact absurd hlt (not_lt.2 (Place.bottom_le _))
      | top => exact absurd hle (Place.not_top_le_point n)
      | point k =>
          rw [List.map_cons, List.sum_cons, ih hrest, Segment.length,
            Number.value_of_place? hstart, Number.value_of_place? hstop]
          ring

/-- The segments cover the time from one number to another: in order, each with
a length, and each ending where the next one starts. -/
structure Covers (first last : Number) (segments : List Segment) : Prop where
  ordered : segments.Pairwise fun s t => s.stop.le t.start = true
  lasts : ∀ s ∈ segments, s.start.lt s.stop = true
  meets : segments.IsChain fun s t => s.stop.eq t.start = true
  start_eq : ∀ s ∈ segments.head?, s.start.eq first = true
  stop_eq : ∀ s ∈ segments.getLast?, s.stop.eq last = true
  sum_length : segments ≠ [] →
    (segments.map Segment.length).sum = last.value - first.value

theorem Tiles.covers {segments : List Segment} {first last : Number} {m n : Int}
    (h : Tiles (.point m) (max (.point m) (.point n)) segments)
    (hfirst : first.place? = some (.point m))
    (hlast : last.place? = some (.point n)) : Covers first last segments := by
  have hpast : segments ≠ [] → max (Place.point m) (.point n) = .point n := by
    intro hne
    exact max_eq_right ((lt_max_iff.1 (h.ne_nil_iff.1 hne)).resolve_left
      (lt_irrefl _)).le
  constructor
  case ordered => exact h.pairwise
  case lasts =>
    intro s hs
    obtain ⟨p, e, hp, he, -, hpe, -⟩ := h.places_of_mem hs
    exact (Number.lt_iff hp he).2 hpe
  case meets =>
    refine h.isChain.imp_of_mem_imp ?_
    intro s t hs _ hmeet
    obtain ⟨-, e, -, he, -⟩ := h.places_of_mem hs
    exact (Number.eq_iff he (hmeet ▸ he)).2 rfl
  case start_eq =>
    intro s hs
    exact (Number.eq_iff (h.place?_head hs) hfirst).2 rfl
  case stop_eq =>
    intro s hs
    have hne : segments ≠ [] := List.ne_nil_of_mem (List.mem_of_getLast? hs)
    exact (Number.eq_iff (h.place?_getLast hs) hlast).2 (hpast hne)
  case sum_length =>
    intro hne
    rw [hpast hne] at h
    rw [h.sum_length, Number.value_of_place? hfirst, Number.value_of_place? hlast,
      sub_div]

/-- A clip whose part of the source begins and ends within the range of
binary64. -/
structure Clip.HasSource (c : Clip) : Prop where
  begins : c.trim.Fits
  ends : ∃ d m, c.duration.mul c.playSpeed = .ok d ∧ c.trim.add d = .ok m ∧ m.Fits

theorem exists_seamless_of_hasSource {p n : Clip} (hp : p.WholeTimed)
    (hn : n.WholeTimed) (hpsource : p.HasSource) (hnsource : n.HasSource) (k : Int) :
    ∃ b, seamless p n (.int k) = .ok b := by
  obtain ⟨e, he, -⟩ := hp.stop_eq
  obtain ⟨m, hm, -⟩ := hn.start
  obtain ⟨d, x, hd, hx, hfits⟩ := hpsource.ends
  have hstart : closeTimes n.start (.int k) = .ok (decide (m = k)) := by
    rw [hm, closeTimes_int]
  refine exists_refuse (exists_refuse (exists_refuse ?_))
  refine exists_bind he (exists_bind (closeTimes_int e k) (exists_refuse ?_))
  refine exists_bind hstart (exists_refuse ?_)
  exact exists_bind hd (exists_bind hx (exists_closeTimes hfits hnsource.begins))

/-- The time at which an export ends, with its range or with the timeline. -/
def ExportRange.last (r : ExportRange) (duration : Number) : Number :=
  match r.stop with
  | some b => b.min duration
  | none => duration

theorem ExportRange.Spans.place?_last {r : ExportRange} {p e c : Place}
    (h : r.Spans p e) {duration : Number} (hc : duration.place? = some c) :
    (r.last duration).place? = some (min e c) := by
  rcases hstop : r.stop with _ | b
  · rw [h.open_eq hstop, min_eq_right (Place.le_top c)]
    simp only [last, hstop, hc]
  · simp only [last, hstop]
    exact Number.place?_min (h.stop_eq b hstop) hc

/-- Between zero and the end of a range there are only points. -/
theorem exists_points {p e : Place} (hp : Place.point 0 ≤ p) (hpe : p < e)
    (n : Int) : (∃ m, p = .point m) ∧ ∃ k, min e (.point n) = .point k := by
  cases p with
  | bottom => exact absurd hp (Place.not_point_le_bottom 0)
  | top => exact absurd hpe (not_lt.2 (Place.le_top e))
  | point m =>
      refine ⟨⟨m, rfl⟩, ?_⟩
      cases e with
      | bottom => exact absurd hpe (not_lt.2 (Place.bottom_le _))
      | top => exact ⟨n, min_eq_right (Place.le_top _)⟩
      | point k =>
          rcases min_choice (Place.point k) (.point n) with h | h
          · exact ⟨k, h⟩
          · exact ⟨n, h⟩

/-- The segments of whole clips end with the timeline. -/
theorem Resolution.exists_duration {sources : Sources} {clips : List Clip}
    {segments : List Segment} {b : Place} (h : Resolution sources clips segments b)
    (hwhole : ∀ c ∈ clips, c.WholeTimed) :
    ∃ n : Int, timelineDuration clips = .ok (.int n) ∧
      b = .point (n * unitsInOne) := by
  have htimed : ∀ c ∈ clips, c.WellTimed := fun c hc => (hwhole c hc).wellTimed
  obtain ⟨stops, hstops⟩ := exists_stops_of_wholeTimed hwhole
  obtain ⟨d, hd⟩ := exists_timelineDuration hstops
  obtain ⟨-, -, hlast, -⟩ := timelineDuration_spec htimed hd
  have hbound : IsBound clips d :=
    hlast.imp_right fun ⟨c, hc, he⟩ => ⟨c, hc, Or.inr he⟩
  obtain ⟨n, rfl⟩ := hbound.exists_int hwhole
  refine ⟨n, hd, ?_⟩
  have hends : ∀ c ∈ clips, ∀ e, c.stop = .ok e → c.start.le e = true := by
    intro c hc e he
    obtain ⟨k, hk, hlt⟩ := (hwhole c hc).stop_eq
    obtain rfl : Number.int k = e := Except.ok.inj (hk.symm.trans he)
    exact Number.le_of_lt hlt
  obtain ⟨q, hq, hbq⟩ := h.le_duration htimed hd hends
  obtain ⟨q', hq', hqb⟩ := h.bound_le _ hbound
  rw [Number.place?_int, Option.some.injEq] at hq hq'
  exact le_antisymm (hq ▸ hbq) (hq' ▸ hqb)

namespace Snapshot

variable {s : Snapshot} {infos : Option (List (String × MediaInfo))}
  {rule : Option FilterRule} {range : ExportRange} {segments : List Segment}
  {a b : Place}

/-- The segments inside the range lead from its start to the end of the export,
if that comes later. -/
theorem Prepared.exists_tiles (h : s.Prepared infos range segments a b)
    (hwhole : ∀ c ∈ s.clips, c.WholeTimed) :
    ∃ d m k, timelineDuration s.clips = .ok d ∧
      range.start.place? = some (.point m) ∧
      (range.last d).place? = some (.point k) ∧
      Tiles (.point m) (max (.point m) (.point k)) segments ∧
      (d.le range.start = true ↔ k ≤ m) := by
  obtain ⟨e, hset⟩ := h.set
  obtain ⟨resolved, c, hres, rfl⟩ := h.clipped
  obtain ⟨n, hn, rfl⟩ := hres.exists_duration hwhole
  have htiles := (hres.cut hset).tiles
  obtain ⟨⟨m, rfl⟩, k, hk⟩ := exists_points hset.nonneg hset.lt (n * unitsInOne)
  refine ⟨.int n, m, k, hn, hset.start_eq, ?_, ?_, ?_⟩
  · rw [hset.toSpans.place?_last (Number.place?_int n), hk]
  · rwa [min_comm, hk] at htiles
  · rw [Number.le_iff (Number.place?_int n) hset.start_eq, ← Place.point_le_point,
      ← hk, min_le_iff, or_iff_right (not_le.2 hset.lt)]

/-- A plan can be made when the sources and the volumes of all clips are within
the range of binary64. -/
theorem Prepared.exists_joinAll (h : s.Prepared infos range segments a b)
    (hwhole : ∀ c ∈ s.clips, c.WholeTimed) {rule : FilterRule}
    (hsources : ∀ c ∈ s.clips, c.HasSource)
    (hvolumes : ∀ c ∈ s.clips, (rule c).HasVolume) :
    ∃ joined, joinAll rule segments = some joined := by
  obtain ⟨e, hset⟩ := h.set
  obtain ⟨resolved, c, hres, rfl⟩ := h.clipped
  refine exists_joinAll_of_measured hvolumes (hres.cut hset).within
    (h.seams.imp ?_)
  intro u v hseam
  exact hseam.measured fun p hp n hn => exists_seamless_of_hasSource
    (hwhole p hp) (hwhole n hn) (hsources p hp) (hsources n hn)

/-- The planned segments cover the range up to the end of the timeline, each
ending where the next one starts: no time is lost and none is played twice.
Only a number beyond the range of binary64 can leave an export without a
plan. -/
theorem planSegments_covers (infos : Option (List (String × MediaInfo)))
    (rule : Option FilterRule) (hids : (s.clips.map Clip.id).Nodup)
    (hwhole : ∀ c ∈ s.clips, c.WholeTimed) :
    (s.range? = .ok none → s.planSegments infos rule = .ok none) ∧
      ∀ range, s.range? = .ok (some range) →
        ∃ d, timelineDuration s.clips = .ok d ∧
          (∀ plan, s.planSegments infos rule = .ok plan →
            ∃ joined, plan = some joined ∧
              Covers range.start (range.last d) joined.segments ∧
              (joined.segments = [] ↔ d.le range.start = true)) ∧
          OnlyTooLarge (s.planSegments infos rule) ∧
          ((d.le range.start = true ∨
              ∀ c ∈ s.clips, c.HasSource ∧ (s.ruleFor rule c).HasVolume) →
            ∃ plan, s.planSegments infos rule = .ok plan) := by
  constructor
  · intro hnone
    rw [planSegments_of_no_range (exists_resolve infos hids hwhole), hnone]
    · rfl
    · intro range
      simp only [hnone, ne_eq, Except.ok.injEq, reduceCtorEq, not_false_eq_true]
  · intro range hrange
    obtain ⟨segments, a, b, h⟩ := exists_prepared infos hids hwhole hrange
    obtain ⟨d, m, k, hd, hstart, hlast, htiles, hle⟩ := h.exists_tiles hwhole
    rw [h.plan_eq]
    refine ⟨d, hd, ?_, ?_, ?_⟩
    · intro plan hplan
      rcases hjoined : joinAll (s.ruleFor rule) segments with _ | joined
      · simp [hjoined, outcome, Except.map] at hplan
      · rw [hjoined] at hplan
        have hjtiles := joinAll_tiles htiles hjoined
        refine ⟨joined, (Except.ok.inj hplan).symm, hjtiles.covers hstart hlast, ?_⟩
        rw [hle, ← not_iff_not, ← ne_eq, hjtiles.ne_nil_iff, not_le, lt_max_iff,
          Place.point_lt_point, Place.point_lt_point, or_iff_right (lt_irrefl m)]
    · intro f hf
      rcases hjoined : joinAll (s.ruleFor rule) segments with _ | joined
      · rw [hjoined] at hf
        exact (Except.error.inj hf).symm
      · simp [hjoined, outcome, Except.map] at hf
    · intro hreturns
      have hjoins : ∃ joined, joinAll (s.ruleFor rule) segments = some joined := by
        rcases hreturns with hover | hfits
        · -- the range begins after the timeline, so there is nothing to join
          rw [max_eq_left (Place.point_le_point.2 (hle.1 hover))] at htiles
          rw [htiles.eq_nil]
          exact ⟨_, rfl⟩
        · exact h.exists_joinAll hwhole (fun c hc => (hfits c hc).1)
            fun c hc => (hfits c hc).2
      obtain ⟨joined, hjoined⟩ := hjoins
      exact ⟨some joined, by rw [hjoined]; rfl⟩

end Snapshot

/-- The middle of a film in two halves. -/
def filmExcerpt : Snapshot :=
  { wholeFilm with settings := { rangeStart := .number 500, rangeEnd := .number 1500 } }

theorem filmExcerpt_range : ∃ range, filmExcerpt.range? = .ok (some range) ∧
    range.start = .float (Binary64.ofInt 500) ∧
    range.stop = some (.float (Binary64.ofInt 1500)) := by
  have hends : filmExcerpt.range?.map (Option.map fun r => (r.start, r.stop)) =
      .ok (some (.float (Binary64.ofInt 500), some (.float (Binary64.ofInt 1500)))) := by
    decide +kernel
  obtain ⟨range, hrange, hends⟩ := exists_of_map_eq hends
  exact ⟨range, hrange, congrArg Prod.fst hends, congrArg Prod.snd hends⟩

theorem filmExcerpt_hasSource : ∀ c ∈ filmExcerpt.clips, c.HasSource := by
  have hzero : (0 : Number).Fits := ⟨Binary64.ofInt 0, by decide +kernel⟩
  have hmiddle : (1000 : Number).Fits := ⟨Binary64.ofInt 1000, by decide +kernel⟩
  have hend : (2000 : Number).Fits := ⟨Binary64.ofInt 2000, by decide +kernel⟩
  have hfirst : halves.1.trim = 0 := by decide +kernel
  have hsecond : halves.2.trim = 1000 := by decide +kernel
  refine List.forall_mem_cons.2 ⟨⟨hfirst ▸ hzero, 1000, 1000, ?_, ?_, hmiddle⟩,
    List.forall_mem_singleton.2 ⟨hsecond ▸ hmiddle, 1000, 2000, ?_, ?_, hend⟩⟩
  all_goals decide +kernel

theorem planSegments_of_filmExcerpt :
    (filmExcerpt.clips.map Clip.id).Nodup ∧
      (∀ c ∈ filmExcerpt.clips, c.WholeTimed) ∧
      ∃ joined d range, filmExcerpt.planSegments none none = .ok (some joined) ∧
        timelineDuration filmExcerpt.clips = .ok d ∧
        filmExcerpt.range? = .ok (some range) ∧ joined.segments ≠ [] ∧
        Covers range.start (range.last d) joined.segments := by
  have hids : (filmExcerpt.clips.map Clip.id).Nodup := by decide
  have hwhole : ∀ c ∈ filmExcerpt.clips, c.WholeTimed :=
    List.forall_mem_cons.2 ⟨halves_whole.1.wholeTimed,
      List.forall_mem_singleton.2 halves_whole.2.wholeTimed⟩
  have hone : ∃ x, finite? (.number 1) = .ok x :=
    ⟨some (Binary64.ofInt 1), by decide +kernel⟩
  have hvolumes : ∀ c ∈ filmExcerpt.clips, (filmExcerpt.ruleFor none c).HasVolume :=
    List.forall_mem_cons.2 ⟨hone, List.forall_mem_singleton.2 hone⟩
  obtain ⟨range, hrange, hstart, -⟩ := filmExcerpt_range
  obtain ⟨-, hplans⟩ := Snapshot.planSegments_covers none none hids hwhole
  obtain ⟨d, hd, hcovers, -, hreturns⟩ := hplans range hrange
  obtain ⟨plan, hplan⟩ := hreturns
    (Or.inr fun c hc => ⟨filmExcerpt_hasSource c hc, hvolumes c hc⟩)
  obtain ⟨joined, rfl, hjoined, hnil⟩ := hcovers plan hplan
  have hduration : timelineDuration filmExcerpt.clips = .ok 2000 := by
    decide +kernel
  obtain rfl : d = 2000 := Except.ok.inj (hd.symm.trans hduration)
  refine ⟨hids, hwhole, joined, 2000, range, hplan, hd, hrange, ?_, hjoined⟩
  rw [ne_eq, hnil, hstart]
  decide +kernel

/-- The same excerpt of a film whose first half lies farther into its source
than binary64 can say. -/
def farExcerpt : Snapshot where
  clips := [{ halves.1 with
      trimStart := some (.int (10 ^ 400)), speed := some (.float (Binary64.ofInt 1)) },
    { halves.2 with speed := some (.float (Binary64.ofInt 1)) }]
  media := wholeFilm.media
  settings := filmExcerpt.settings

/-- The range begins before the timeline ends, yet there are no planned
segments. -/
theorem planSegments_farExcerpt :
    (farExcerpt.clips.map Clip.id).Nodup ∧
      (∀ c ∈ farExcerpt.clips, c.WholeTimed) ∧
      ∃ range, farExcerpt.range? = .ok (some range) ∧
        timelineDuration farExcerpt.clips = .ok 2000 ∧
        Number.le 2000 range.start = false ∧
        farExcerpt.planSegments none none = .error .integerTooLarge := by
  obtain ⟨range, hrange, hstart, -⟩ := filmExcerpt_range
  refine ⟨by decide, ?_, range, hrange, by decide +kernel, ?_, ?_⟩
  · refine List.forall_mem_cons.2 ⟨?_, List.forall_mem_singleton.2 ?_⟩
    · exact ⟨halves_whole.1.start, halves_whole.1.duration⟩
    · exact ⟨halves_whole.2.start, halves_whole.2.duration⟩
  · rw [hstart]
    decide +kernel
  · have hfault : (farExcerpt.planSegments none none).map (fun _ => ()) =
        .error .integerTooLarge := by decide +kernel
    exact eq_error_of_map_eq hfault

end Montage
