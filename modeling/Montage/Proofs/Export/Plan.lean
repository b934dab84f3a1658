import Montage.Export.Compile
import Montage.Proofs.Timeline.Canonical
import Montage.Proofs.Timeline.Recall
import Montage.Proofs.Timeline.Run

/-!
The planned segments of an export: the resolved ones, cut to the range and joined.
-/

namespace Montage

namespace Snapshot

/-- The range that the settings give, if they give one. -/
def range? (s : Snapshot) : Except Fault (Option ExportRange) :=
  ExportRange.ofSettings s.settings.rangeStart s.settings.rangeEnd

/-- An instant is exported when it lies inside the range and before the end of
the timeline. -/
structure Exports (s : Snapshot) (t : Instant) : Prop where
  nonneg : 0 ≤ t
  ended : ∃ d, timelineDuration s.clips = .ok d ∧ d.isAfter t = true
  ranged : ∃ r, s.range? = .ok (some r) ∧ r.holds t = true

end Snapshot

/-- A time at which a segment inside the range may start or end. -/
def IsCutBound (clips : List Clip) (range : ExportRange) (x : Number) : Prop :=
  IsBound clips x ∨ x = range.start ∨ range.stop = some x

theorem cut_bounds {clips : List Clip} (range : ExportRange) {s : Segment}
    (hstart : IsBound clips s.start) (hstop : IsBound clips s.stop) :
    IsCutBound clips range (range.cut s).start ∧
      IsCutBound clips range (range.cut s).stop := by
  constructor
  · simp only [ExportRange.cut, Number.max]
    split
    · exact Or.inr (Or.inl rfl)
    · exact Or.inl hstart
  · rcases hend : range.stop with _ | x
    · simp only [ExportRange.cut, hend]
      exact Or.inl hstop
    · simp only [ExportRange.cut, hend, Number.min]
      split
      · exact Or.inr (Or.inr hend)
      · exact Or.inl hstop

/-- The resolved segments inside a range: they tile the part of the timeline
from one place to the other. -/
structure CutToRange (sources : Sources) (clips : List Clip)
    (range : ExportRange) (segments : List Segment) (a b : Place) : Prop where
  tiles : Tiles a b segments
  nonneg : Place.point 0 ≤ a
  shows : ∀ s ∈ segments, Shows sources clips s
  within : ∀ s ∈ segments, s.Within clips
  bounds : ∀ s ∈ segments, IsCutBound clips range s.start ∧
    IsCutBound clips range s.stop

theorem Resolution.cut {sources : Sources} {clips : List Clip}
    {range : ExportRange} {segments : List Segment} {b p e : Place}
    (h : Resolution sources clips segments b) (hrange : range.IsSet p e) :
    CutToRange sources clips range (range.clip segments) p (max p (min b e)) := by
  have htiles := ExportRange.clip_tiles hrange.toSpans h.tiles
  rw [max_eq_right hrange.nonneg] at htiles
  have hcut : ∀ u ∈ range.clip segments, ∃ s ∈ segments, range.cut s = u := by
    intro u hu
    exact List.mem_map.1 (List.mem_of_mem_filter hu)
  refine ⟨htiles, hrange.nonneg, ?_, ?_, ?_⟩
  · intro u hu
    obtain ⟨q, e', hq, he', hpq, hqe, -⟩ := htiles.places_of_mem hu
    refine ⟨h.playsWinners_clip hrange.toSpans u hu, ?_, q, e', hq, he',
      hrange.nonneg.trans hpq, hqe⟩
    intro channel
    obtain ⟨s, hs, rfl⟩ := hcut u hu
    obtain ⟨w, hw, -⟩ := (h.resolved s hs).single channel
    exact ⟨w, by rw [ExportRange.run_cut, hw]⟩
  · intro u hu channel c hc
    obtain ⟨s, hs, rfl⟩ := hcut u hu
    obtain ⟨w, hw, hmem⟩ := (h.resolved s hs).single channel
    rw [ExportRange.run_cut, hw, Option.mem_toList] at hc
    exact hmem c hc
  · intro u hu
    obtain ⟨s, hs, rfl⟩ := hcut u hu
    exact cut_bounds range (h.resolved s hs).start_bound
      (h.resolved s hs).stop_bound

namespace Snapshot

variable {s : Snapshot} {infos : Option (List (String × MediaInfo))}
  {rule : Option FilterRule}

/-- Exported instants lie among the segments inside the range. -/
theorem Exports.bounds {sources : Sources} {range : ExportRange}
    {segments : List Segment} {b p e : Place} {t : Instant} (ht : s.Exports t)
    (h : Resolution sources s.clips segments b)
    (htimed : ∀ c ∈ s.clips, c.WellTimed)
    (hrange : s.range? = .ok (some range)) (hset : range.IsSet p e) :
    p ≤ Place.ofInstant t ∧ Place.ofInstant t < max p (min b e) := by
  obtain ⟨d, hd, htd⟩ := ht.ended
  obtain ⟨range', hrange', hholds⟩ := ht.ranged
  obtain rfl : range' = range :=
    Option.some.inj (Except.ok.inj (hrange'.symm.trans hrange))
  have hinside := hset.toSpans.holds_iff.1 hholds
  have hend := (h.bounds_of_instant htimed hd ht.nonneg htd).2
  exact ⟨hinside.1, lt_max_of_lt_right (lt_min hend hinside.2)⟩

/-- The plan is the segments inside the range, joined with the filters that the
rule gives. -/
theorem planSegments_eq {segments : List Segment} {range : ExportRange}
    (hclips : Coherent s.clips)
    (hresolve : resolve (s.sources infos) s.clips = .ok segments)
    (hrange : s.range? = .ok (some range))
    (hwithin : ∀ u ∈ range.clip segments, u.Within s.clips) :
    s.planSegments infos rule =
      (outcome (joinAll (s.ruleFor rule) (range.clip segments))).map some := by
  have hrun : (joinSegments (s.ruleFor rule) (range.clip segments)).run' [] =
      outcome (joinAll (s.ruleFor rule) (range.clip segments)) :=
    (answers_joinSegments hclips hwithin).run'_eq
  rw [← hrun]
  simp only [range?] at hrange
  simp only [planSegments, hresolve, hrange, StateT.run'_eq, bind, Except.bind]
  cases (joinSegments (s.ruleFor rule) (range.clip segments)).run [] <;> rfl

/-- Where the timeline is resolved, the end of every clip is known. -/
theorem exists_stops {sources : Sources} {clips : List Clip}
    {segments : List Segment} (h : resolve sources clips = .ok segments) :
    ∃ stops, clips.mapM Clip.stop = .ok stops := by
  simp only [resolve, bind_eq_ok] at h
  obtain ⟨placed, hplaced, -⟩ := h
  induction clips generalizing placed with
  | nil => exact ⟨[], rfl⟩
  | cons c rest ih =>
      simp only [List.mapM_cons, Placed.ofClip, bind_eq_ok] at hplaced
      obtain ⟨-, ⟨e, he, -⟩, ps, hps, -⟩ := hplaced
      obtain ⟨stops, hstops⟩ := ih ps hps
      exact ⟨e :: stops, by simp [List.mapM_cons, he, hstops, bind,
        Except.bind, pure, Except.pure]⟩

/-- What a plan is made from. -/
theorem planSegments_cases {joined : Joined}
    (h : s.planSegments infos rule = .ok (some joined)) :
    ∃ segments range, resolve (s.sources infos) s.clips = .ok segments ∧
      s.range? = .ok (some range) := by
  simp only [planSegments, bind_eq_ok] at h
  obtain ⟨segments, hresolve, range, hrange, h⟩ := h
  rcases range with _ | range
  · simp [pure, Except.pure] at h
  · exact ⟨segments, range, hresolve, hrange⟩

/-- What a plan is made of: the segments inside the range, joined.  They reach
from one place to another, and all exported instants lie between the two. -/
structure Planned (s : Snapshot) (infos : Option (List (String × MediaInfo)))
    (rule : Option FilterRule) (joined : Joined) (range : ExportRange)
    (segments : List Segment) (a b : Place) : Prop where
  set : ∃ e, range.IsSet a e
  cut : CutToRange (s.sources infos) s.clips range segments a b
  joins : joinAll (s.ruleFor rule) segments = some joined
  exported : ∀ t, s.Exports t → a ≤ Place.ofInstant t ∧ Place.ofInstant t < b
  exports : (∀ c ∈ s.clips, ∀ e, c.stop = .ok e → c.start.le e = true) →
    ∀ t, 0 ≤ t → a ≤ Place.ofInstant t → Place.ofInstant t < b → s.Exports t
  /-- Inside the range, an instant at which a clip plays is exported. -/
  exports_of_isOn : ∀ t, 0 ≤ t → a ≤ Place.ofInstant t → Place.ofInstant t < b →
    (∃ c ∈ s.clips, c.isOn t = true) → s.Exports t

theorem exists_planned {joined : Joined} (hids : (s.clips.map Clip.id).Nodup)
    (htimed : ∀ c ∈ s.clips, c.WellTimed)
    (h : s.planSegments infos rule = .ok (some joined)) :
    ∃ range segments a b, s.Planned infos rule joined range segments a b := by
  obtain ⟨segments, range, hresolve, hrange⟩ := planSegments_cases h
  obtain ⟨stops, hstops⟩ := exists_stops hresolve
  obtain ⟨segments', b, hresolve', hres⟩ :=
    exists_resolution (s.sources infos) hids htimed hstops
  obtain rfl : segments = segments' := Except.ok.inj (hresolve.symm.trans hresolve')
  obtain ⟨p, e, hset⟩ := ExportRange.ofSettings_spec hrange
  have hcut := hres.cut hset
  have hplan : s.planSegments infos rule =
      (outcome (joinAll (s.ruleFor rule) (range.clip segments))).map some :=
    planSegments_eq (coherent_of_nodup hids) hresolve hrange hcut.within
  obtain ⟨r, hjoins, hr⟩ := map_outcome_eq_ok.1 (hplan.symm.trans h)
  obtain rfl : r = joined := Option.some.inj hr
  obtain ⟨d, hd⟩ := exists_timelineDuration hstops
  have hranged : ∀ t, p ≤ Place.ofInstant t → Place.ofInstant t < max p (min b e) →
      Place.ofInstant t < b ∧ range.holds t = true := by
    intro t hpt htb
    obtain ⟨hb, he⟩ := lt_min_iff.1 ((lt_max_iff.1 htb).resolve_left (not_lt.2 hpt))
    exact ⟨hb, hset.toSpans.holds_iff.2 ⟨hpt, he⟩⟩
  refine ⟨range, range.clip segments, p, max p (min b e), ⟨e, hset⟩, hcut, hjoins,
    ?_, ?_, ?_⟩
  · intro t ht
    exact ht.bounds hres htimed hrange hset
  · intro hends t ht hpt htb
    obtain ⟨hbefore, hholds⟩ := hranged t hpt htb
    obtain ⟨q, hq, hbq⟩ := hres.le_duration htimed hd hends
    exact ⟨ht, ⟨d, hd, (Number.isAfter_iff hq).2 (hbefore.trans_le hbq)⟩, range,
      hrange, hholds⟩
  · rintro t ht hpt htb ⟨c, hc, hon⟩
    obtain ⟨-, -, -, hlast⟩ := timelineDuration_spec htimed hd
    obtain ⟨x, hx, hafter⟩ := c.exists_stop_of_isOn hon
    obtain ⟨q, r, hq, hr, hqr⟩ := Number.exists_places_of_le (hlast c hc x hx)
    rw [Number.isAfter_iff hq] at hafter
    exact ⟨ht, ⟨d, hd, (Number.isAfter_iff hr).2 (hafter.trans_le hqr)⟩, range,
      hrange, (hranged t hpt htb).2⟩

end Snapshot

end Montage
