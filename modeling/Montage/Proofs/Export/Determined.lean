import Montage.Proofs.Export.Playback
import Montage.Proofs.Timeline.Canonical

/-!
What an export depends on: who wins when, and no more.

Two timelines with the same winners at all exported instants have the same canonical tiling there,
however differently their clips start, end and hide each other.  Segments of the same slots are
joined alike, so the two plans are alike too.
-/

namespace Montage

section Alike

variable {s s' t t' : Segment} {rule : FilterRule}

namespace Segment.SameSlot

theorem joined (hs : SameSlot s s') (ht : SameSlot t t') :
    SameSlot (s.joined t) (s'.joined t') := by
  refine ⟨hs.start_eq, ht.stop_eq, ?_⟩
  intro channel
  rw [run_joined, run_joined, hs.run_eq, ht.run_eq]

end Segment.SameSlot

/-- A joint at a seam looks at what segments of the same slots share. -/
theorem joint_eq_of_sameSlot (hs : s.SameSlot s') (ht : t.SameSlot t')
    (hseam : IsSeam s.stop t.start) (hseam' : IsSeam s'.stop t'.start) :
    joint rule s t = joint rule s' t' := by
  obtain ⟨hstop, k, hk⟩ := hseam
  obtain ⟨hstop', k', hk'⟩ := hseam'
  have hstart := ht.start_eq
  rw [hk, hk', Number.int_eq_int] at hstart
  have heq : t.start = t'.start := by rw [hk, hk', hstart]
  refine joint_congr rule ((hstop.trans heq).trans hstop'.symm) ?_ heq ?_
  · intro channel
    rw [Segment.tail?, Segment.tail?, hs.run_eq]
  · intro channel
    rw [Segment.winner?, Segment.winner?, ht.run_eq]

/-- Joined segments of the same slots, with one flag. -/
structure Joined.Alike (r r' : Joined) : Prop where
  segments : List.Forall₂ Segment.SameSlot r.segments r'.segments
  blocked_eq : r.blocked = r'.blocked

/-- Segments of the same slots that meet at seams are joined alike. -/
theorem joinAll_alike {segments segments' : List Segment}
    (h : List.Forall₂ Segment.SameSlot segments segments')
    (hseams : segments.IsChain fun u v => IsSeam u.stop v.start)
    (hseams' : segments'.IsChain fun u v => IsSeam u.stop v.start) :
    Option.Rel Joined.Alike (joinAll rule segments) (joinAll rule segments') := by
  have hrelated : Option.Rel (Joined.Related Segment.SameSlot) (joinAll rule segments)
      (joinAll rule segments') :=
    joinAll_related joint_eq_of_sameSlot (fun hs ht _ => hs.joined ht) h hseams hseams'
  generalize joinAll rule segments = r, joinAll rule segments' = r' at hrelated
  cases hrelated with
  | none => exact .none
  | some hr => exact .some ⟨hr.segments, hr.blocked_eq⟩

end Alike

namespace Snapshot

variable {s s' : Snapshot} {infos : Option (List (String × MediaInfo))}
  {range : ExportRange} {segments segments' : List Segment} {a a' b b' : Place}

/-- The segments that are to be joined: a canonical tiling of what is
exported. -/
structure Prepared (s : Snapshot) (infos : Option (List (String × MediaInfo)))
    (range : ExportRange) (segments : List Segment) (a b : Place) : Prop where
  set : ∃ e, range.IsSet a e
  tiles : Tiles a b segments
  plays : ∀ u ∈ segments, PlaysWinners (s.sources infos) s.clips u
  differs : segments.IsChain Segment.Differs
  seams : segments.IsChain fun u v => IsSeam u.stop v.start
  clipped : ∃ resolved c, Resolution (s.sources infos) s.clips resolved c ∧
    segments = range.clip resolved
  exports_iff : ∀ t,
    s.Exports t ↔ a ≤ Place.ofInstant t ∧ Place.ofInstant t < b
  plan_eq : ∀ rule, s.planSegments infos rule =
    (outcome (joinAll (s.ruleFor rule) segments)).map some

theorem exists_prepared (infos : Option (List (String × MediaInfo)))
    (hids : (s.clips.map Clip.id).Nodup)
    (hwhole : ∀ c ∈ s.clips, c.WholeTimed)
    (hrange : s.range? = .ok (some range)) :
    ∃ segments a b, s.Prepared infos range segments a b := by
  have htimed : ∀ c ∈ s.clips, c.WellTimed :=
    fun c hc => (hwhole c hc).wellTimed
  obtain ⟨stops, hstops⟩ := exists_stops_of_wholeTimed hwhole
  obtain ⟨segments, b, hresolve, hres⟩ :=
    exists_resolution (s.sources infos) hids htimed hstops
  obtain ⟨p, e, hset⟩ := ExportRange.ofSettings_spec hrange
  have hcut := hres.cut hset
  refine ⟨range.clip segments, p, max p (min b e), ?_⟩
  constructor
  case set => exact ⟨e, hset⟩
  case tiles => exact hcut.tiles
  case plays => exact fun u hu => (hcut.shows u hu).plays
  case differs =>
    exact ExportRange.clip_isChain_differs hset.toSpans hres.tiles (resolve_isChain hresolve)
  case seams =>
    exact ExportRange.clip_isChain (M := IsSeam) hset.toSpans hres.tiles
      (hres.isChain_isSeam hwhole)
  case clipped => exact ⟨segments, b, hres, rfl⟩
  case exports_iff =>
    intro t
    constructor
    · intro ht
      exact ht.bounds hres htimed hrange hset
    · rintro ⟨hpt, htb⟩
      have hends : ∀ c ∈ s.clips, ∀ x, c.stop = .ok x → c.start.le x = true := by
        intro c hc x hx
        obtain ⟨n, hn, hlt⟩ := (hwhole c hc).stop_eq
        obtain rfl : x = .int n := Except.ok.inj (hx.symm.trans hn)
        exact Number.le_of_lt hlt
      obtain ⟨d, hd⟩ := exists_timelineDuration hstops
      obtain ⟨q, hq, hbq⟩ := hres.le_duration htimed hd hends
      have hmin : Place.ofInstant t < min b e :=
        (lt_max_iff.1 htb).resolve_left (not_lt.2 hpt)
      obtain ⟨hb, he⟩ := lt_min_iff.1 hmin
      refine ⟨Place.zero_le_ofInstant_iff.1 (hset.nonneg.trans hpt), ⟨d, hd, ?_⟩,
        range, hrange, hset.toSpans.holds_iff.2 ⟨hpt, he⟩⟩
      exact (Number.isAfter_iff hq).2 (hb.trans_le hbq)
  case plan_eq =>
    intro rule
    exact planSegments_eq (coherent_of_nodup hids) hresolve hrange hcut.within

/-- What is planned is what was prepared, joined. -/
theorem Prepared.joins {rule : Option FilterRule} {joined : Joined}
    (h : s.Prepared infos range segments a b)
    (hplan : s.planSegments infos rule = .ok (some joined)) :
    joinAll (s.ruleFor rule) segments = some joined := by
  rw [h.plan_eq, map_outcome_eq_ok] at hplan
  obtain ⟨r, hjoins, hr⟩ := hplan
  rw [hjoins, Option.some.inj hr]

/-- What a snapshot is prepared to join, as cut to the range. -/
theorem Prepared.exists_cut (h : s.Prepared infos range segments a b) :
    ∃ b', CutToRange (s.sources infos) s.clips range segments a b' := by
  obtain ⟨e, hset⟩ := h.set
  obtain ⟨resolved, c, hres, rfl⟩ := h.clipped
  exact ⟨_, hres.cut hset⟩

/-- Two snapshots differ in no more than their clips and tracks. -/
structure SameSetup (s s' : Snapshot) : Prop where
  media_eq : s.media = s'.media
  infos_eq : s.infos = s'.infos
  settings_eq : s.settings = s'.settings
  defaults_eq : s.defaults = s'.defaults

/-- Two snapshots export the same instants, and on each channel the same clip or
none wins at each of them. -/
structure SameWinners (s s' : Snapshot)
    (infos : Option (List (String × MediaInfo))) : Prop where
  exports_iff : ∀ t, s.Exports t ↔ s'.Exports t
  isWinner_iff : ∀ t, s.Exports t → ∀ channel w,
    IsWinner w (candidates (s.sources infos) s.clips t channel) ↔
      IsWinner w (candidates (s'.sources infos) s'.clips t channel)

/-- An instant of the range is exported as long as some clip has not ended. -/
theorem exports_iff_of_wholeTimed (hwhole : ∀ c ∈ s.clips, c.WholeTimed)
    {t : Instant} :
    s.Exports t ↔ 0 ≤ t ∧
      (∃ c ∈ s.clips, ∃ e, c.stop = .ok e ∧ e.isAfter t = true) ∧
      ∃ r, s.range? = .ok (some r) ∧ r.holds t = true := by
  have htimed : ∀ c ∈ s.clips, c.WellTimed :=
    fun c hc => (hwhole c hc).wellTimed
  constructor
  · rintro ⟨ht, ⟨d, hd, hafter⟩, hrange⟩
    refine ⟨ht, ?_, hrange⟩
    obtain ⟨-, -, hlast, -⟩ := timelineDuration_spec htimed hd
    rcases hlast with rfl | ⟨c, hc, hstop⟩
    · exact absurd (Number.isAfter_int.1 hafter) (not_lt.2 (by exact_mod_cast ht))
    · exact ⟨c, hc, d, hstop, hafter⟩
  · rintro ⟨ht, ⟨c, hc, e, he, hafter⟩, hrange⟩
    obtain ⟨stops, hstops⟩ := exists_stops_of_wholeTimed hwhole
    obtain ⟨d, hd⟩ := exists_timelineDuration hstops
    obtain ⟨-, -, -, hends⟩ := timelineDuration_spec htimed hd
    obtain ⟨p, q, hp, hq, hpq⟩ := Number.exists_places_of_le (hends c hc e he)
    refine ⟨ht, ⟨d, hd, ?_⟩, hrange⟩
    rw [Number.isAfter_iff hp] at hafter
    exact (Number.isAfter_iff hq).2 (hafter.trans_le hpq)

/-- Clips that win at no exported instant may be left out, as long as this does
not change what is exported. -/
theorem sameWinners_filter {keep : Clip → Bool}
    (hexports : ∀ t, s.Exports t ↔
      Exports { s with clips := s.clips.filter keep } t)
    (hkeep : ∀ t, s.Exports t → ∀ channel c,
      IsWinner (some c) (candidates (s.sources infos) s.clips t channel) →
        keep c = true) :
    SameWinners s { s with clips := s.clips.filter keep } infos := by
  refine ⟨hexports, ?_⟩
  intro t ht channel
  refine isWinner_iff_of_topmost? ?_
  change IsWinner _ (candidates (s.sources infos) (s.clips.filter keep) t channel)
  have hwinner := isWinner_topmost? (candidates (s.sources infos) s.clips t channel)
  rw [candidates_filter]
  rcases htop : topmost? (candidates (s.sources infos) s.clips t channel) with _ | c
  · rw [topmost?_eq_none_iff] at htop
    rw [htop]
    rfl
  · rw [htop] at hwinner
    exact IsTopmost.filter hwinner (hkeep t ht channel c hwinner)

/-- Clips may be listed in another order, as long as those of each track keep
theirs. -/
theorem sameWinners_of_perm {clips : List Clip}
    (hwhole : ∀ c ∈ s.clips, c.WholeTimed) (hperm : clips.Perm s.clips)
    (htracks : ∀ track, clips.filter (·.track == track) =
      s.clips.filter (·.track == track)) :
    SameWinners s { s with clips := clips } infos := by
  have hmem : ∀ c, c ∈ clips ↔ c ∈ s.clips := fun c => hperm.mem_iff
  constructor
  · intro t
    have hwhole' : ∀ c ∈ clips, c.WholeTimed :=
      fun c hc => hwhole c ((hmem c).1 hc)
    rw [exports_iff_of_wholeTimed hwhole,
      exports_iff_of_wholeTimed (s := { s with clips := clips }) hwhole']
    simp only [hmem, range?]
  · intro t _ channel w
    change _ ↔ IsWinner w (candidates (s.sources infos) clips t channel)
    have hcandidates : (candidates (s.sources infos) clips t channel).Perm
        (candidates (s.sources infos) s.clips t channel) := by
      cases channel <;> exact hperm.filter _
    cases w with
    | none => exact ⟨fun h => (h ▸ hcandidates).eq_nil,
        fun h => (h ▸ hcandidates.symm).eq_nil⟩
    | some c =>
        simp only [IsWinner, isTopmost_iff, hcandidates.mem_iff,
          ← candidates_filter, htracks]

theorem Prepared.le_of_exports (h : s.Prepared infos range segments a b)
    (h' : s'.Prepared infos range segments' a b')
    (hexports : ∀ t, s.Exports t → s'.Exports t) : b ≤ b' := by
  by_contra hlt
  rw [not_le] at hlt
  obtain ⟨e, hset⟩ := h.set
  have hle : a ≤ b' := h'.tiles.le
  obtain ⟨t, -, hbt, htb⟩ := exists_instant (hset.nonneg.trans hle) hlt
  have ht : s.Exports t := (h.exports_iff t).2 ⟨hle.trans hbt, htb⟩
  exact absurd ((h'.exports_iff t).1 (hexports t ht)).2 (not_lt.2 hbt)

/-- There is one canonical tiling of what is exported. -/
theorem Prepared.sameSlots (h : s.Prepared infos range segments a b)
    (h' : s'.Prepared infos range segments' a' b')
    (hsame : SameWinners s s' infos) :
    List.Forall₂ Segment.SameSlot segments segments' := by
  obtain ⟨e, hset⟩ := h.set
  obtain ⟨e', hset'⟩ := h'.set
  obtain rfl : a = a' :=
    Option.some.inj (hset.start_eq.symm.trans hset'.start_eq)
  obtain rfl : b = b' := le_antisymm
    (h.le_of_exports h' fun t => (hsame.exports_iff t).1)
    (h'.le_of_exports h fun t => (hsame.exports_iff t).2)
  refine h.tiles.forall₂_sameSlot h'.tiles hset.nonneg h.plays ?_ h.differs
    h'.differs
  intro u hu t ht channel
  have hexports : s.Exports t :=
    (h.exports_iff t).2 (h'.tiles.bounds_of_holds hu ht)
  have htopmost := (hsame.isWinner_iff t hexports channel _).1
    (isWinner_topmost? _)
  rw [h'.plays u hu t ht channel, isWinner_iff.1 htopmost]

/-- Two plans of the same slots, or the same fault. -/
inductive PlansAlike :
    Except Fault (Option Joined) → Except Fault (Option Joined) → Prop where
  | fault (f : Fault) : PlansAlike (.error f) (.error f)
  | none : PlansAlike (.ok none) (.ok none)
  | some {r r' : Joined} (h : r.Alike r') : PlansAlike (.ok (some r)) (.ok (some r'))

theorem PlansAlike.exists_of_some {r : Joined} {x : Except Fault (Option Joined)}
    (h : PlansAlike (.ok (Option.some r)) x) :
    ∃ r', x = .ok (Option.some r') ∧ r.Alike r' := by
  cases h with
  | some hr => exact ⟨_, rfl, hr⟩

theorem Prepared.plansAlike {rule : Option FilterRule}
    (h : s.Prepared infos range segments a b)
    (h' : s'.Prepared infos range segments' a' b')
    (hrule : s.ruleFor rule = s'.ruleFor rule)
    (hsame : SameWinners s s' infos) :
    PlansAlike (s.planSegments infos rule) (s'.planSegments infos rule) := by
  have halike : Option.Rel Joined.Alike (joinAll (s.ruleFor rule) segments)
      (joinAll (s.ruleFor rule) segments') :=
    joinAll_alike (h.sameSlots h' hsame) h.seams h'.seams
  rw [h.plan_eq, h'.plan_eq, ← hrule]
  generalize joinAll (s.ruleFor rule) segments = joined,
    joinAll (s.ruleFor rule) segments' = joined' at halike
  cases halike with
  | none => exact .fault _
  | some hr => exact .some hr

/-- The usual range leaves whole segments as they are, up to whole times. -/
theorem Prepared.exists_int
    (h : s.Prepared infos ⟨.float .zero, none⟩ segments a b)
    (hwhole : ∀ c ∈ s.clips, c.WholeTimed) :
    ∀ u ∈ segments, ∃ m n : Int, u.start = .int m ∧ u.stop = .int n := by
  obtain ⟨e, hset⟩ := h.set
  obtain ⟨resolved, c, hres, rfl⟩ := h.clipped
  intro u hu
  obtain ⟨v, hv, rfl⟩ := List.mem_map.1 (List.mem_of_mem_filter hu)
  obtain ⟨p, q, hp, -, h0p, -⟩ := hres.tiles.places_of_mem hv
  obtain ⟨m, hm⟩ := (hres.resolved v hv).start_bound.exists_int hwhole
  obtain ⟨n, hn⟩ := (hres.resolved v hv).stop_bound.exists_int hwhole
  have ha : Place.point 0 = a := Option.some.inj hset.start_eq
  refine ⟨m, n, ?_, hn⟩
  rw [ExportRange.cut_start_eq hset.toSpans hp (ha ▸ h0p), hm]

/-- With the usual range, the two plans are the same to the last number. -/
theorem Prepared.planSegments_eq {rule : Option FilterRule}
    (h : s.Prepared infos ⟨.float .zero, none⟩ segments a b)
    (h' : s'.Prepared infos ⟨.float .zero, none⟩ segments' a' b')
    (hwhole : ∀ c ∈ s.clips, c.WholeTimed)
    (hwhole' : ∀ c ∈ s'.clips, c.WholeTimed)
    (hrule : s.ruleFor rule = s'.ruleFor rule)
    (hsame : SameWinners s s' infos) :
    s.planSegments infos rule = s'.planSegments infos rule := by
  rw [h.plan_eq, h'.plan_eq, hrule, Segment.eq_of_sameSlots
    (h.sameSlots h' hsame) (h.exists_int hwhole) (h'.exists_int hwhole')]

/-- With the usual range, something is exported unless there are no clips. -/
theorem exports_zero_iff (hwhole : ∀ c ∈ s.clips, c.WholeTimed)
    (hrange : s.range? = .ok (some ⟨.float .zero, none⟩)) :
    s.Exports 0 ↔ s.clips ≠ [] := by
  rw [exports_iff_of_wholeTimed hwhole]
  constructor
  · rintro ⟨-, ⟨c, hc, -⟩, -⟩
    exact List.ne_nil_of_mem hc
  · intro hne
    obtain ⟨c, hc⟩ := List.exists_mem_of_ne_nil s.clips hne
    obtain ⟨n, hn, -⟩ := (hwhole c hc).stop_eq
    have htimed := (hwhole c hc).wellTimed
    have hpos : (0 : Int) < n := Number.zero_lt_int.1
      (Number.add_pos htimed.start_nonneg htimed.duration_pos hn)
    have hstart : (Number.float Binary64.zero).place? = some (.point 0) := rfl
    refine ⟨le_rfl, ⟨c, hc, _, hn, Number.isAfter_int.2 (by exact_mod_cast hpos)⟩,
      _, hrange, ?_⟩
    rw [ExportRange.holds,
      (Number.reachedAt_iff hstart).2 (Place.zero_le_ofInstant le_rfl)]
    rfl

/-- A frame of a set size does not depend on the clips. -/
theorem SameSetup.compile_eq (h : SameSetup s s') {rule : Option FilterRule}
    {width height : Option Number}
    (hsize : s.settings.resolution = .size width height)
    (hempty : s.clips.isEmpty = s'.clips.isEmpty)
    (hplan : s.planSegments infos rule = s'.planSegments infos rule) :
    s.compile infos rule = s'.compile infos rule := by
  obtain ⟨hmedia, hinfos, hsettings, hdefaults⟩ := h
  have hframe : outputFrame s'.settings s.clips s'.media =
      outputFrame s'.settings s'.clips s'.media := by
    rw [hsettings] at hsize
    simp only [outputFrame, hsize]
  simp only [compile, copyPlan, copyResult, renderResult, sources, ruleFor,
    hplan, hempty, hmedia, hinfos, hsettings, hdefaults, hframe]

theorem exists_resolve (infos : Option (List (String × MediaInfo)))
    (hids : (s.clips.map Clip.id).Nodup)
    (hwhole : ∀ c ∈ s.clips, c.WholeTimed) :
    ∃ resolved, resolve (s.sources infos) s.clips = .ok resolved := by
  obtain ⟨stops, hstops⟩ := exists_stops_of_wholeTimed hwhole
  obtain ⟨resolved, -, hresolve, -⟩ := exists_resolution (s.sources infos) hids
    (fun c hc => (hwhole c hc).wellTimed) hstops
  exact ⟨resolved, hresolve⟩

/-- Without a range there is nothing to plan. -/
theorem planSegments_of_no_range {rule : Option FilterRule}
    (hresolve : ∃ resolved, resolve (s.sources infos) s.clips = .ok resolved)
    (hrange : ∀ range, s.range? ≠ .ok (some range)) :
    s.planSegments infos rule = s.range?.map fun _ => none := by
  obtain ⟨resolved, hresolve⟩ := hresolve
  rw [planSegments, hresolve]
  change (s.range? >>= _) = _
  rcases hread : s.range? with f | _ | range
  · rfl
  · rfl
  · exact absurd hread (hrange range)

/-- With volumes that can be read, there is a plan. -/
theorem exists_plan_of_whole {rule : Option FilterRule}
    (infos : Option (List (String × MediaInfo))) (hids : (s.clips.map Clip.id).Nodup)
    (hwhole : ∀ c ∈ s.clips, c.Whole) (hrange : ∃ range, s.range? = .ok range)
    (hvolumes : ∀ c ∈ s.clips, (s.ruleFor rule c).HasVolume) :
    ∃ plan, s.planSegments infos rule = .ok plan := by
  have hwholeTimed : ∀ c ∈ s.clips, c.WholeTimed := fun c hc => (hwhole c hc).wholeTimed
  obtain ⟨_ | range, hrange⟩ := hrange
  · refine ⟨none, ?_⟩
    rw [planSegments_of_no_range (exists_resolve infos hids hwholeTimed) (by simp [hrange]), hrange]
    rfl
  · obtain ⟨segments, a, b, h⟩ := exists_prepared infos hids hwholeTimed hrange
    obtain ⟨c, hcut⟩ := h.exists_cut
    obtain ⟨joined, hjoined⟩ := exists_joinAll_of_hasVolume hwhole hcut.shows h.seams hvolumes
    exact ⟨some joined, (h.plan_eq rule).trans (map_outcome_eq_ok.2 ⟨joined, hjoined, rfl⟩)⟩

theorem SameSetup.ruleFor_eq (h : SameSetup s s') (rule : Option FilterRule) :
    s.ruleFor rule = s'.ruleFor rule := by
  rw [ruleFor, ruleFor, h.defaults_eq]

theorem SameSetup.range?_eq (h : SameSetup s s') : s.range? = s'.range? := by
  rw [range?, range?, h.settings_eq]

/-- The same winners make for plans alike. -/
theorem plansAlike_of_sameWinners {rule : Option FilterRule} (hsetup : SameSetup s s')
    (hids : (s.clips.map Clip.id).Nodup) (hids' : (s'.clips.map Clip.id).Nodup)
    (hwhole : ∀ c ∈ s.clips, c.WholeTimed) (hwhole' : ∀ c ∈ s'.clips, c.WholeTimed)
    (hsame : SameWinners s s' infos) :
    PlansAlike (s.planSegments infos rule) (s'.planSegments infos rule) := by
  have hranges := hsetup.range?_eq
  by_cases hsome : ∃ range, s.range? = .ok (some range)
  · obtain ⟨range, hrange⟩ := hsome
    obtain ⟨segments, a, b, h⟩ := exists_prepared infos hids hwhole hrange
    obtain ⟨segments', a', b', h'⟩ :=
      exists_prepared infos hids' hwhole' (hranges ▸ hrange)
    exact h.plansAlike h' (hsetup.ruleFor_eq rule) hsame
  · rw [not_exists] at hsome
    rw [planSegments_of_no_range (exists_resolve infos hids hwhole) hsome,
      planSegments_of_no_range (exists_resolve infos hids' hwhole')
        (hranges ▸ hsome), ← hranges]
    cases s.range? with
    | error f => exact .fault f
    | ok range => exact .none

/-- With the usual range and a frame of a set size, the same winners make for the same result. -/
theorem compile_eq_of_sameWinners {rule : Option FilterRule} {width height : Option Number}
    (hsetup : SameSetup s s') (hids : (s.clips.map Clip.id).Nodup)
    (hids' : (s'.clips.map Clip.id).Nodup) (hwhole : ∀ c ∈ s.clips, c.WholeTimed)
    (hwhole' : ∀ c ∈ s'.clips, c.WholeTimed) (hsame : SameWinners s s' infos)
    (hstart : s.settings.rangeStart = .number 0) (hend : s.settings.rangeEnd = .null)
    (hsize : s.settings.resolution = .size width height) :
    s.compile infos rule = s'.compile infos rule := by
  have hrange := range?_of_open hstart hend
  have hrange' := hsetup.range?_eq ▸ hrange
  obtain ⟨segments, a, b, h⟩ := exists_prepared infos hids hwhole hrange
  obtain ⟨segments', a', b', h'⟩ := exists_prepared infos hids' hwhole' hrange'
  have hempty : s.clips = [] ↔ s'.clips = [] := by
    have hzero := hsame.exports_iff 0
    rwa [exports_zero_iff hwhole hrange, exports_zero_iff hwhole' hrange', not_iff_not] at hzero
  refine hsetup.compile_eq hsize ?_
    (h.planSegments_eq h' hwhole hwhole' (hsetup.ruleFor_eq rule) hsame)
  rw [Bool.eq_iff_iff, List.isEmpty_iff, List.isEmpty_iff, hempty]

/-- The plan of an export depends only on who wins at the exported instants; and
with the usual range and a frame of a set size, so does the whole result. -/
theorem planSegments_determined (infos : Option (List (String × MediaInfo)))
    (rule : Option FilterRule) (hsetup : SameSetup s s')
    (hids : (s.clips.map Clip.id).Nodup) (hids' : (s'.clips.map Clip.id).Nodup)
    (hwhole : ∀ c ∈ s.clips, c.WholeTimed)
    (hwhole' : ∀ c ∈ s'.clips, c.WholeTimed)
    (hsame : SameWinners s s' infos) :
    PlansAlike (s.planSegments infos rule) (s'.planSegments infos rule) ∧
      (s.settings.rangeStart = .number 0 → s.settings.rangeEnd = .null →
        ∀ width height, s.settings.resolution = .size width height →
          s.compile infos rule = s'.compile infos rule) := by
  constructor
  · exact plansAlike_of_sameWinners hsetup hids hids' hwhole hwhole' hsame
  · intro hstart hend width height hsize
    exact compile_eq_of_sameWinners hsetup hids hids' hwhole hwhole' hsame hstart hend hsize

/-- In which order clips of different tracks are listed does not matter. -/
theorem planSegments_of_perm {clips : List Clip} {rule : Option FilterRule}
    (hids : (s.clips.map Clip.id).Nodup) (hwhole : ∀ c ∈ s.clips, c.WholeTimed)
    (hperm : clips.Perm s.clips)
    (htracks : ∀ track, clips.filter (·.track == track) = s.clips.filter (·.track == track)) :
    PlansAlike (s.planSegments infos rule) (planSegments { s with clips := clips } infos rule) ∧
      (s.settings.rangeStart = .number 0 → s.settings.rangeEnd = .null →
        ∀ width height, s.settings.resolution = .size width height →
          s.compile infos rule = compile { s with clips := clips } infos rule) := by
  have hsetup : SameSetup s { s with clips := clips } := ⟨rfl, rfl, rfl, rfl⟩
  have hids' : (clips.map Clip.id).Nodup := (hperm.map Clip.id).nodup_iff.2 hids
  have hwhole' : ∀ c ∈ clips, c.WholeTimed := fun c hc => hwhole c (hperm.mem_iff.1 hc)
  have hsame : SameWinners s { s with clips := clips } infos :=
    sameWinners_of_perm hwhole hperm htracks
  constructor
  · exact plansAlike_of_sameWinners hsetup hids hids' hwhole hwhole' hsame
  · intro hstart hend width height hsize
    exact compile_eq_of_sameWinners hsetup hids hids' hwhole hwhole' hsame hstart hend hsize

end Snapshot

/-- A clip below the seam of the halves. -/
def spareClip : Clip :=
  { id := "spare", mediaId := "film", track := 1, start := 200
    duration := 1500, speed := some 1 }

/-- A film in two halves, with the spare clip below. -/
def spareFilm : Snapshot where
  clips := [halves.1, spareClip, halves.2]
  media := wholeFilm.media
  settings := { resolution := .size (some 640) (some 360) }

/-- The film without what is below. -/
def bareFilm : Snapshot :=
  { spareFilm with clips := spareFilm.clips.filter (·.track == 0) }

theorem spareFilm_whole : ∀ c ∈ spareFilm.clips, c.WholeTimed := by
  simp only [spareFilm, List.forall_mem_cons]
  exact ⟨halves_whole.1.wholeTimed, ⟨⟨200, rfl, by decide⟩, 1500, rfl, by decide⟩,
    halves_whole.2.wholeTimed, List.forall_mem_nil _⟩

theorem mem_bareFilm {c : Clip} :
    c ∈ bareFilm.clips ↔ c ∈ spareFilm.clips ∧ c.track = 0 :=
  List.mem_filter.trans (and_congr_right fun _ => beq_iff_eq)

theorem spareFilm_cases {c : Clip} (hc : c ∈ spareFilm.clips) :
    c = halves.1 ∨ c = spareClip ∨ c = halves.2 := by
  simpa [spareFilm] using hc

/-- The halves hide the spare clip, and the second of them ends after it. -/
theorem spareFilm_sameWinners : spareFilm.SameWinners bareFilm none := by
  have hwhole := spareFilm_whole
  refine Snapshot.sameWinners_filter ?_ ?_
  · intro t
    change spareFilm.Exports t ↔ bareFilm.Exports t
    rw [Snapshot.exports_iff_of_wholeTimed hwhole,
      Snapshot.exports_iff_of_wholeTimed
        fun c hc => hwhole c (mem_bareFilm.1 hc).1]
    refine and_congr_right fun _ => and_congr_left fun _ => ⟨?_, ?_⟩
    · rintro ⟨c, hc, e, he, hafter⟩
      have hlast : ∃ n : Int, c.stop = .ok (.int n) ∧ n ≤ 2000 := by
        rcases spareFilm_cases hc with rfl | rfl | rfl
        · exact ⟨1000, rfl, by decide⟩
        · exact ⟨1700, rfl, by decide⟩
        · exact ⟨2000, rfl, le_rfl⟩
      obtain ⟨n, hn, hle⟩ := hlast
      obtain rfl : e = .int n := Except.ok.inj (he.symm.trans hn)
      refine ⟨halves.2, mem_bareFilm.2 ⟨by simp [spareFilm], rfl⟩, .int 2000, rfl,
        ?_⟩
      rw [Number.isAfter_int] at hafter ⊢
      exact hafter.trans_le (by exact_mod_cast hle)
    · rintro ⟨c, hc, hstop⟩
      exact ⟨c, (mem_bareFilm.1 hc).1, hstop⟩
  · intro t _ channel c hc
    rcases spareFilm_cases (candidates_subset (IsTopmost.mem hc)) with
      rfl | rfl | rfl
    · rfl
    · -- one of the halves is on the track above
      have hspare : (200 : Int) ≤ t ∧ t < (1700 : Int) :=
        (Clip.isOn_int rfl rfl).1 (isOn_of_mem_candidates (IsTopmost.mem hc))
      push_cast at hspare
      have habove : ∃ d ∈ spareFilm.clips, d.track = 0 ∧ d.isOn t = true ∧
          (d.visible && (spareFilm.sources none).hasPicture d) = true := by
        rcases lt_or_ge t 1000 with hlt | hge
        · refine ⟨halves.1, by simp [spareFilm], rfl, ?_, by decide +kernel⟩
          rw [Clip.isOn_int (m := 0) (n := 1000) rfl rfl]
          push_cast
          exact ⟨by linarith, hlt⟩
        · refine ⟨halves.2, by simp [spareFilm], rfl, ?_, by decide +kernel⟩
          rw [Clip.isOn_int (m := 1000) (n := 2000) rfl rfl]
          push_cast
          exact ⟨hge, by linarith⟩
      obtain ⟨d, hd, htrack, hon, hpicture⟩ := habove
      have hle : spareClip.track ≤ d.track :=
        (isTopmost_iff.1 hc).2 d (mem_candidates channel hd hon hpicture)
      rw [htrack] at hle
      exact absurd hle (by decide)
    · rfl

theorem planSegments_of_spareFilm :
    spareFilm.SameSetup bareFilm ∧ (spareFilm.clips.map Clip.id).Nodup ∧
      (bareFilm.clips.map Clip.id).Nodup ∧
      (∀ c ∈ spareFilm.clips, c.WholeTimed) ∧
      (∀ c ∈ bareFilm.clips, c.WholeTimed) ∧
      spareFilm.SameWinners bareFilm none ∧
      Snapshot.PlansAlike (spareFilm.planSegments none none)
        (bareFilm.planSegments none none) ∧
      spareFilm.compile none none = bareFilm.compile none none := by
  have hsetup : spareFilm.SameSetup bareFilm := ⟨rfl, rfl, rfl, rfl⟩
  have hids : (spareFilm.clips.map Clip.id).Nodup := by decide
  have hids' : (bareFilm.clips.map Clip.id).Nodup := by decide
  have hwhole' : ∀ c ∈ bareFilm.clips, c.WholeTimed :=
    fun c hc => spareFilm_whole c (mem_bareFilm.1 hc).1
  obtain ⟨hplans, hresults⟩ := Snapshot.planSegments_determined none none hsetup
    hids hids' spareFilm_whole hwhole' spareFilm_sameWinners
  exact ⟨hsetup, hids, hids', spareFilm_whole, hwhole', spareFilm_sameWinners,
    hplans, hresults rfl rfl _ _ rfl⟩

/-- A film in two halves, the first of them longer than binary64 can say. -/
def endlessFilm : Snapshot where
  clips := [{ halves.1 with
      duration := .int (10 ^ 400), speed := some (.float (Binary64.ofInt 1)) },
    { halves.2 with
      start := .int (10 ^ 400), speed := some (.float (Binary64.ofInt 1)) }]
  media := wholeFilm.media

/-- A plan may fail, even where a film is compared with itself. -/
theorem planSegments_endlessFilm :
    endlessFilm.SameSetup endlessFilm ∧ (endlessFilm.clips.map Clip.id).Nodup ∧
      (∀ c ∈ endlessFilm.clips, c.WholeTimed) ∧
      endlessFilm.SameWinners endlessFilm none ∧
      endlessFilm.planSegments none none = .error .integerTooLarge := by
  refine ⟨⟨rfl, rfl, rfl, rfl⟩, by decide, ?_,
    ⟨fun _ => Iff.rfl, fun _ _ _ _ => Iff.rfl⟩, ?_⟩
  · simp only [endlessFilm, List.forall_mem_cons]
    exact ⟨⟨⟨0, rfl, le_rfl⟩, 10 ^ 400, rfl, by positivity⟩,
      ⟨⟨10 ^ 400, rfl, by positivity⟩, 1000, rfl, by decide⟩,
      List.forall_mem_nil _⟩
  · have hfault : (endlessFilm.planSegments none none).map (fun _ => ()) =
        .error .integerTooLarge := by decide +kernel
    exact eq_error_of_map_eq hfault

end Montage
