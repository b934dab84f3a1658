import Montage.Proofs.Export.Plan
import Montage.Proofs.Filter.Agree
import Montage.Proofs.Timeline.Source

/-!
What a planned segment plays.

A joined segment is rendered from the first clip of its runs alone.  For clips whose times are whole
numbers this is what the winner of each instant plays: each clip of a run goes on from the one
before it along one line through the source, with the same filters.
-/

namespace Montage

/-- Two clips have the same filters, as far as they count on a channel. -/
def SameFilters (rule : FilterRule) (p n : Clip) : Channel → Prop
  | .video => (rule p).video.agrees (rule n).video = true
  | .audio => p.muted = n.muted ∧ (rule p).audio.agrees (rule n).audio = true

/-- On a channel, one clip plays at every instant what another one plays. -/
structure PlaysAs (rule : FilterRule) (channel : Channel) (p n : Clip) : Prop
    where
  media : p.mediaId = n.mediaId
  source : ∀ t, p.sourceAt t = n.sourceAt t
  filters : SameFilters rule p n channel

/-- Two volumes are the same, or binary64 values no more than the tolerance
apart. -/
def NearVolumes (a b : Document) : Prop :=
  a.agrees b = true ∨
    ∃ x y, finite? a = .ok (some x) ∧ finite? b = .ok (some y) ∧
      (Number.float (x.sub y).abs).le volumeTolerance = true

/-- Filters without a NaN. -/
structure Effective.NoNaN (e : Effective) : Prop where
  video : e.video.NoNaN
  audio : e.audio.NoNaN

/-- The volume is no integer beyond the range of binary64. -/
def Effective.HasVolume (e : Effective) : Prop :=
  ∃ x, finite? e.volume = .ok x

/-- Without a NaN among the defaults and the overrides of a clip, the usual
rule gives none. -/
theorem Defaults.noNaN_effective {d : Defaults} {c : Clip} (hdv : d.video.NoNaN)
    (hda : d.audio.NoNaN) (hcv : c.videoFilters.NoNaN)
    (hca : c.audioFilters.NoNaN) : (d.effective c).NoNaN :=
  ⟨hdv.merged hcv, hda.merged hca⟩

section PlaysAs

variable {rule : FilterRule} {channel : Channel} {p n c : Clip}

theorem PlaysAs.self (h : (rule c).NoNaN) : PlaysAs rule channel c c := by
  refine ⟨rfl, fun _ => rfl, ?_⟩
  cases channel with
  | video => exact h.video.agrees_self
  | audio => exact ⟨rfl, h.audio.agrees_self⟩

theorem PlaysAs.trans (hpn : PlaysAs rule channel p n)
    (hnc : PlaysAs rule channel n c) : PlaysAs rule channel p c := by
  refine ⟨hpn.media.trans hnc.media,
    fun t => (hpn.source t).trans (hnc.source t), ?_⟩
  have hp := hpn.filters
  have hn := hnc.filters
  cases channel with
  | video => exact FilterSet.agrees_trans hp hn
  | audio => exact ⟨hp.1.trans hn.1, FilterSet.agrees_trans hp.2 hn.2⟩

theorem nearVolumes_of_sameVolume {a b : Document}
    (h : sameVolume a b = .ok true) : NearVolumes a b := by
  simp only [sameVolume, bind_eq_ok] at h
  obtain ⟨x, hx, y, hy, h⟩ := h
  rcases x with _ | x <;> rcases y with _ | y
  · exact Or.inl (Except.ok.inj h)
  · exact Or.inl (Except.ok.inj h)
  · exact Or.inl (Except.ok.inj h)
  · exact Or.inr ⟨x, y, hx, hy, Except.ok.inj h⟩

/-- What it takes to look or sound the same. -/
theorem sameRendering_cases
    (h : sameRendering channel p n (rule p) (rule n) = .ok true) :
    SameFilters rule p n channel ∧
      (channel = .audio → NearVolumes (rule p).volume (rule n).volume) := by
  cases channel with
  | video =>
      have hvisible := Except.ok.inj h
      rw [Bool.and_eq_true] at hvisible
      exact ⟨hvisible.2, by simp⟩
  | audio =>
      obtain ⟨hmuted, h⟩ := refuse_eq_ok.1 h
      obtain ⟨hfilters, hvolume⟩ := refuse_eq_ok.1 h
      simp only [bne_iff_ne, ne_eq, not_not] at hmuted
      simp only [Bool.not_eq_true', Bool.not_eq_false] at hfilters
      exact ⟨⟨hmuted, hfilters⟩, fun _ => nearVolumes_of_sameVolume hvolume⟩

end PlaysAs

/-- One clip of a run goes on as the next one. -/
structure Linked (rule : FilterRule) (channel : Channel) (p n : Clip) : Prop where
  playsAs : PlaysAs rule channel p n
  volumes : channel = .audio → NearVolumes (rule p).volume (rule n).volume

theorem linked_of_seamless {rule : FilterRule} {channel : Channel} {p n : Clip}
    (hp : p.Whole) (hn : n.Whole) {k : Int}
    (hseam : seamless p n (.int k) = .ok true)
    (hsame : sameRendering channel p n (rule p) (rule n) = .ok true) :
    Linked rule channel p n := by
  obtain ⟨hfilters, hvolumes⟩ := sameRendering_cases hsame
  exact ⟨⟨(seamless_cases hseam).1, sourceAt_eq_of_seamless hp hn hseam,
    hfilters⟩, hvolumes⟩

/-- A whole time at which one segment ends and the next one starts. -/
def IsSeam (x y : Number) : Prop :=
  x = y ∧ ∃ k : Int, y = .int k

section Joints

variable {sources : Sources} {clips : List Clip} {rule : FilterRule}
  {s t : Segment}

theorem exists_sameRendering {channel : Channel} {p n : Clip}
    (hp : (rule p).HasVolume) (hn : (rule n).HasVolume) :
    ∃ b, sameRendering channel p n (rule p) (rule n) = .ok b := by
  obtain ⟨x, hx⟩ := hp
  obtain ⟨y, hy⟩ := hn
  have hvolume : ∃ b, sameVolume (rule p).volume (rule n).volume = .ok b := by
    refine exists_bind hx (exists_bind hy ?_)
    cases x <;> cases y <;> exact ⟨_, rfl⟩
  cases channel with
  | video => exact ⟨_, rfl⟩
  | audio => exact exists_refuse (exists_refuse hvolume)

theorem exists_between {prev next : Option Clip} {boundary : Number}
    {channel : Channel}
    (hseamless : ∀ p ∈ prev, ∀ n ∈ next, ∃ b, seamless p n boundary = .ok b)
    (hprev : ∀ c ∈ prev, (rule c).HasVolume)
    (hnext : ∀ c ∈ next, (rule c).HasVolume) :
    ∃ d, Decision.between rule prev next boundary channel = .ok d := by
  rcases prev with _ | p <;> rcases next with _ | n
  · exact ⟨_, rfl⟩
  · exact ⟨_, rfl⟩
  · exact ⟨_, rfl⟩
  · obtain ⟨near, hnear⟩ := hseamless p rfl n rfl
    obtain ⟨same, hsame⟩ : ∃ b,
        sameRendering channel p n (rule p) (rule n) = .ok b :=
      exists_sameRendering (hprev p rfl) (hnext n rfl)
    simp only [Decision.between]
    split
    · exact ⟨_, rfl⟩
    · refine exists_bind hnear ?_
      split
      · refine exists_bind hsame ?_
        split <;> exact ⟨_, rfl⟩
      · exact ⟨_, rfl⟩

/-- At a joint of two times, all that is asked of some clips has an answer. -/
structure Measured (clips : List Clip) (x y : Number) : Prop where
  close : ∃ b, closeTimes x y = .ok b
  seamless : ∀ p ∈ clips, ∀ n ∈ clips, ∃ b, seamless p n y = .ok b

theorem joint_ne_none (hs : s.Within clips) (ht : t.Within clips)
    (hvolumes : ∀ c ∈ clips, (rule c).HasVolume)
    (hmeasured : Measured clips s.stop t.start) : joint rule s t ≠ none := by
  have htail : ∀ channel, ∀ c ∈ s.tail? channel, c ∈ clips :=
    fun channel c hc => hs channel c (List.mem_of_getLast? hc)
  have hwinner : ∀ channel, ∀ c ∈ t.winner? channel, c ∈ clips :=
    fun channel c hc => ht channel c (List.mem_of_head? hc)
  have hbetween : ∀ channel, ∃ d, Decision.between rule (s.tail? channel)
      (t.winner? channel) t.start channel = .ok d := by
    intro channel
    refine exists_between ?_ ?_ ?_
    · intro p hp n hn
      exact hmeasured.seamless p (htail channel p hp) n (hwinner channel n hn)
    · exact fun c hc => hvolumes c (htail channel c hc)
    · exact fun c hc => hvolumes c (hwinner channel c hc)
  obtain ⟨audio, haudio⟩ := hbetween .audio
  obtain ⟨video, hvideo⟩ := hbetween .video
  obtain ⟨near, hclose⟩ := hmeasured.close
  rw [joint, hclose, haudio, hvideo]
  simp only [Except.toOption, bind, Option.bind_some]
  split
  · split <;> simp only [pure, ne_eq, reduceCtorEq, not_false_eq_true]
  · simp only [pure, ne_eq, reduceCtorEq, not_false_eq_true]

/-- Segments can be joined when all volumes can be read and every joint is
measured. -/
theorem exists_joinAll_of_measured {segments : List Segment}
    (hvolumes : ∀ c ∈ clips, (rule c).HasVolume)
    (hwithin : ∀ u ∈ segments, u.Within clips)
    (hchain : segments.IsChain fun u v => Measured clips u.stop v.start) :
    ∃ r, joinAll rule segments = some r :=
  exists_joinAll (fun _ hu => hu) (fun _ _ hu hv _ _ => hu.joined hv)
    (fun _ _ hu hv hseam => joint_ne_none hu hv hvolumes hseam) hwithin hchain

theorem IsSeam.measured {x y : Number} (h : IsSeam x y)
    (hseamless : ∀ p ∈ clips, ∀ n ∈ clips, ∀ k : Int,
      ∃ b, seamless p n (.int k) = .ok b) : Measured clips x y := by
  obtain ⟨hxy, k, hk⟩ := h
  refine ⟨⟨decide (k = k), ?_⟩, ?_⟩
  · rw [hxy, hk, closeTimes_int]
  · intro p hp n hn
    rw [hk]
    exact hseamless p hp n hn k

/-- What is known of a joined segment: it carries the winners, and its runs are
linked. -/
structure PlaysRuns (sources : Sources) (clips : List Clip) (rule : FilterRule)
    (g : Segment) : Prop extends Carries sources clips g where
  linked : ∀ channel, (g.run channel).IsChain (Linked rule channel)

theorem Shows.playsRuns (h : Shows sources clips s) :
    PlaysRuns sources clips rule s := by
  refine ⟨h.carries, ?_⟩
  intro channel
  obtain ⟨w, hw⟩ := h.single channel
  rw [hw]
  cases w with
  | none => exact .nil
  | some c => exact .singleton c

theorem PlaysRuns.joined (hclips : Coherent clips)
    (hwhole : ∀ c ∈ clips, c.Whole) (hs : PlaysRuns sources clips rule s)
    (ht : Shows sources clips t) (hseam : IsSeam s.stop t.start)
    (hj : joint rule s t = some .joined) :
    PlaysRuns sources clips rule (s.joined t) := by
  obtain ⟨hstop, k, hk⟩ := hseam
  refine ⟨hs.toCarries.joined hclips ht.carries (by rw [hstop]) hj, ?_⟩
  intro channel
  obtain ⟨w, hw⟩ := ht.single channel
  apply isChain_run_joined (hs.linked channel) hw hj
  intro p hp n hn hseam hsame
  rw [hk] at hseam
  exact linked_of_seamless (hwhole p (hs.within channel p hp))
    (hwhole n (ht.carries.within channel n hn)) hseam hsame

/-- All clips of a run play what the first one plays. -/
theorem PlaysRuns.playsAs (hfilters : ∀ c ∈ clips, (rule c).NoNaN) {g : Segment}
    (h : PlaysRuns sources clips rule g) {channel : Channel} {first : Clip}
    (hfirst : g.winner? channel = some first) :
    ∀ c ∈ g.run channel, PlaysAs rule channel first c := by
  have hlinked := (h.linked channel).imp fun _ _ hlink => hlink.playsAs
  have hwithin := h.within channel
  rw [Segment.winner?] at hfirst
  obtain ⟨rest, hrest⟩ := List.head?_eq_some_iff.1 hfirst
  rw [hrest] at hlinked hwithin ⊢
  intro c hc
  rcases List.mem_cons.1 hc with rfl | hc
  · exact .self (hfilters c (hwithin c hc))
  · have htrans : IsTrans Clip (PlaysAs rule channel) := ⟨fun _ _ _ => .trans⟩
    exact hlinked.rel_cons hc

section Joined

variable {segments : List Segment} (hclips : Coherent clips)
  (hwhole : ∀ c ∈ clips, c.Whole)
  (hshows : ∀ u ∈ segments, Shows sources clips u)
  (hchain : segments.IsChain fun u v => IsSeam u.stop v.start)
include hclips hwhole hshows hchain

theorem playsRuns_of_joinAll {r : Joined} (h : joinAll rule segments = some r) :
    ∀ g ∈ r.segments, PlaysRuns sources clips rule g :=
  joinAll_forall (fun _ hu => hu.playsRuns)
    (fun _ _ hu hv hseam hj => hu.joined hclips hwhole hv hseam hj) hshows hchain h

omit hclips in
/-- Segments that meet at seams can be joined when all volumes can be read. -/
theorem exists_joinAll_of_hasVolume
    (hvolumes : ∀ c ∈ clips, (rule c).HasVolume) :
    ∃ r, joinAll rule segments = some r := by
  have hwithin : ∀ u ∈ segments, u.Within clips :=
    fun u hu => (hshows u hu).carries.within
  refine exists_joinAll_of_measured hvolumes hwithin (hchain.imp ?_)
  intro u v hseam
  exact hseam.measured fun p hp n hn => exists_seamless (hwhole p hp) (hwhole n hn)

end Joined

end Joints

/-- The resolved segments of whole clips meet at whole times. -/
theorem Resolution.isChain_isSeam {sources : Sources} {clips : List Clip}
    {segments : List Segment} {b : Place}
    (h : Resolution sources clips segments b) (hwhole : ∀ c ∈ clips, c.WholeTimed) :
    segments.IsChain fun s t => IsSeam s.stop t.start := by
  refine h.tiles.isChain.imp_of_mem_imp ?_
  intro s t hs ht hplace
  obtain ⟨m, hm⟩ := (h.resolved s hs).stop_bound.exists_int hwhole
  obtain ⟨k, hk⟩ := (h.resolved t ht).start_bound.exists_int hwhole
  rw [hm, hk, Number.place?_int, Number.place?_int, Option.some.injEq,
    Place.point.injEq, mul_left_inj' Number.units_pos.ne'] at hplace
  exact ⟨by rw [hm, hk, hplace], k, hk⟩

/-- On a channel, a segment plays at an instant what the winner plays. -/
structure PlaysBack (sources : Sources) (clips : List Clip) (rule : FilterRule)
    (g : Segment) (t : Instant) (channel : Channel) : Prop where
  nil_iff : g.run channel = [] ↔ candidates sources clips t channel = []
  winner : ∀ w, IsWinner (some w) (candidates sources clips t channel) →
    w ∈ g.run channel ∧ ∃ first, g.winner? channel = some first ∧
      PlaysAs rule channel first w
  volumes : channel = .audio → (g.run channel).IsChain fun p n =>
    NearVolumes (rule p).volume (rule n).volume

theorem PlaysRuns.playsBack {sources : Sources} {clips : List Clip}
    {rule : FilterRule} (hfilters : ∀ c ∈ clips, (rule c).NoNaN) {g : Segment}
    (h : PlaysRuns sources clips rule g) {t : Instant}
    (ht : g.holds t = true) (channel : Channel) :
    PlaysBack sources clips rule g t channel := by
  refine ⟨h.nil_iff t ht channel, ?_, ?_⟩
  · intro w hw
    have hmem := h.winner_mem t ht channel w (isWinner_iff.1 hw)
    obtain ⟨first, hfirst⟩ : ∃ first, g.winner? channel = some first := by
      exact Option.isSome_iff_exists.1
        (List.isSome_head?.2 (List.ne_nil_of_mem hmem))
    exact ⟨hmem, first, hfirst, h.playsAs hfilters hfirst w hmem⟩
  · intro haudio
    exact (h.linked channel).imp fun _ _ hlink => hlink.volumes haudio

/-- Rendering each planned segment from the first clips of its runs plays, at
every exported instant, what the winners play.  Only a volume beyond the range
of binary64 can leave an export without a plan. -/
theorem exists_segment_playing_winners {s : Snapshot}
    (infos : Option (List (String × MediaInfo))) {rule : Option FilterRule}
    (hids : (s.clips.map Clip.id).Nodup) (hwhole : ∀ c ∈ s.clips, c.Whole)
    (hfilters : ∀ c ∈ s.clips, (s.ruleFor rule c).NoNaN) {t : Instant}
    (ht : s.Exports t) :
    (∀ plan, s.planSegments infos rule = .ok plan →
      ∃ joined g, plan = some joined ∧ joined.segments.filter (·.holds t) = [g] ∧
        ∀ channel,
          PlaysBack (s.sources infos) s.clips (s.ruleFor rule) g t channel) ∧
      ((∀ c ∈ s.clips, (s.ruleFor rule c).HasVolume) →
        ∃ plan, s.planSegments infos rule = .ok plan) := by
  have htimed : ∀ c ∈ s.clips, c.WellTimed := fun c hc => (hwhole c hc).wellTimed
  have hclips := coherent_of_nodup hids
  obtain ⟨d, hd, -⟩ := ht.ended
  obtain ⟨stops, hstops, -⟩ := timelineDuration_spec htimed hd
  obtain ⟨segments, b, hresolve, hres⟩ :=
    exists_resolution (s.sources infos) hids htimed hstops
  obtain ⟨range, hrange, -⟩ := ht.ranged
  obtain ⟨p, e, hset⟩ := ExportRange.ofSettings_spec hrange
  have hcut := hres.cut hset
  have hchain := ExportRange.clip_isChain (M := IsSeam) hset.toSpans hres.tiles
    (hres.isChain_isSeam fun c hc => (hwhole c hc).wholeTimed)
  have hplan : s.planSegments infos rule =
      (outcome (joinAll (s.ruleFor rule) (range.clip segments))).map some :=
    Snapshot.planSegments_eq hclips hresolve hrange hcut.within
  constructor
  · intro plan h
    rw [hplan] at h
    rcases hjoined : joinAll (s.ruleFor rule) (range.clip segments) with _ | joined
    · simp [hjoined, outcome, Except.map] at h
    rw [hjoined] at h
    obtain rfl : some joined = plan := Except.ok.inj h
    obtain ⟨hstart, hend⟩ := ht.bounds hres htimed hrange hset
    obtain ⟨g, hg, hholds, hfilter⟩ :=
      (joinAll_tiles hcut.tiles hjoined).exists_filter_holds hstart hend
    have hruns := playsRuns_of_joinAll hclips hwhole hcut.shows hchain hjoined g hg
    exact ⟨joined, g, rfl, hfilter, hruns.playsBack hfilters hholds⟩
  · intro hvolumes
    obtain ⟨joined, hjoined⟩ :=
      exists_joinAll_of_hasVolume hwhole hcut.shows hchain hvolumes
    exact ⟨some joined, by rw [hplan, hjoined]; rfl⟩

/-- The usual range begins at zero and is open. -/
theorem range?_of_open {s : Snapshot} (hstart : s.settings.rangeStart = .number 0)
    (hend : s.settings.rangeEnd = .null) :
    s.range? = .ok (some ⟨.float .zero, none⟩) := by
  have hfirst : finite? (.number 0) = .ok (some Binary64.zero) := by
    decide +kernel
  rw [Snapshot.range?, hstart, hend, ExportRange.ofSettings_eq hfirst rfl]
  rfl

/-- With the usual range, all instants before the end are exported. -/
theorem exports_of_open {s : Snapshot} {t : Instant}
    (hstart : s.settings.rangeStart = .number 0)
    (hend : s.settings.rangeEnd = .null) (ht : 0 ≤ t) {n : Int}
    (hd : timelineDuration s.clips = .ok (.int n)) (htn : t < n) :
    s.Exports t := by
  have hrange := range?_of_open hstart hend
  refine ⟨ht, ⟨_, hd, Number.isAfter_int.2 htn⟩, ⟨_, hrange, ?_⟩⟩
  have hzero : (Number.float Binary64.zero).place? = some (.point 0) := rfl
  rw [ExportRange.holds, (Number.reachedAt_iff hzero).2 (Place.zero_le_ofInstant ht)]
  rfl

theorem noNaN_of_unfiltered {c : Clip} (hvideo : c.videoFilters = .empty)
    (haudio : c.audioFilters = .empty) : (Defaults.effective {} c).NoNaN :=
  Defaults.noNaN_effective FilterSet.noNaN_neutral_video
    FilterSet.noNaN_neutral_audio (hvideo ▸ FilterSet.noNaN_empty)
    (haudio ▸ FilterSet.noNaN_empty)

/-- The two halves of a film, exported whole. -/
def wholeFilm : Snapshot where
  clips := [halves.1, halves.2]
  media := [{ id := "film", name := "film.mp4", mimeType := "video/mp4" }]

theorem exists_segment_of_wholeFilm :
    (wholeFilm.clips.map Clip.id).Nodup ∧ (∀ c ∈ wholeFilm.clips, c.Whole) ∧
      (∀ c ∈ wholeFilm.clips, (wholeFilm.ruleFor none c).NoNaN) ∧
      (∀ c ∈ wholeFilm.clips, (wholeFilm.ruleFor none c).HasVolume) ∧
      wholeFilm.Exports 1500 ∧
      ∃ joined g, wholeFilm.planSegments none none = .ok (some joined) ∧
        joined.segments.filter (·.holds 1500) = [g] ∧
        ∀ channel, PlaysBack (wholeFilm.sources none) wholeFilm.clips
          (wholeFilm.ruleFor none) g 1500 channel := by
  have hids : (wholeFilm.clips.map Clip.id).Nodup := by decide
  have hwhole : ∀ c ∈ wholeFilm.clips, c.Whole :=
    List.forall_mem_cons.2 ⟨halves_whole.1,
      List.forall_mem_singleton.2 halves_whole.2⟩
  have hfilters : ∀ c ∈ wholeFilm.clips, (wholeFilm.ruleFor none c).NoNaN :=
    List.forall_mem_cons.2 ⟨noNaN_of_unfiltered rfl rfl,
      List.forall_mem_singleton.2 (noNaN_of_unfiltered rfl rfl)⟩
  have hone : ∃ x, finite? (.number 1) = .ok x :=
    ⟨some (Binary64.ofInt 1), by decide +kernel⟩
  have hvolumes : ∀ c ∈ wholeFilm.clips, (wholeFilm.ruleFor none c).HasVolume :=
    List.forall_mem_cons.2 ⟨hone, List.forall_mem_singleton.2 hone⟩
  have hd : timelineDuration wholeFilm.clips = .ok (.int 2000) := by
    decide +kernel
  have ht : wholeFilm.Exports 1500 :=
    exports_of_open rfl rfl (by norm_num) hd (by norm_num)
  obtain ⟨hplays, hplanned⟩ :=
    exists_segment_playing_winners none hids hwhole hfilters ht
  obtain ⟨plan, hplan⟩ := hplanned hvolumes
  obtain ⟨joined, g, rfl, hback⟩ := hplays plan hplan
  exact ⟨hids, hwhole, hfilters, hvolumes, ht, joined, g, hplan, hback⟩

/-- The two halves of a film, the second of them louder by one. -/
def louderHalf : Snapshot where
  clips := [{ halves.1 with volume := some 9007199254740992 },
    { halves.2 with volume := some 9007199254740993 }]
  media := wholeFilm.media

/-- Binary64 does not tell the two volumes apart, so the halves are joined
although their volumes differ by one. -/
theorem louderHalf_joined :
    (louderHalf.clips.map Clip.id).Nodup ∧ (∀ c ∈ louderHalf.clips, c.Whole) ∧
      (∀ c ∈ louderHalf.clips, (louderHalf.ruleFor none c).NoNaN) ∧
      louderHalf.Exports 0 ∧
      ∃ joined g p n x y, louderHalf.planSegments none none = .ok (some joined) ∧
        joined.segments = [g] ∧ g.audio = [p, n] ∧
        (louderHalf.ruleFor none p).volume = .number x ∧
        (louderHalf.ruleFor none n).volume = .number y ∧
        1 / 1000000 < |x.value - y.value| := by
  have hplan : (louderHalf.planSegments none none).map (·.map fun j =>
      j.segments.map fun g => g.audio.map Clip.volume) =
        .ok (some [[some 9007199254740992, some 9007199254740993]]) := by
    decide +kernel
  have hvolume : ∀ c : Clip, ∀ x, c.volume = some x →
      (louderHalf.ruleFor none c).volume = .number x := by
    intro c x hx
    change Defaults.volumeOf {} c = .number x
    rw [Defaults.volumeOf, hx]
  refine ⟨by decide, ?_, ?_, ?_, ?_⟩
  · refine List.forall_mem_cons.2 ⟨?_, List.forall_mem_singleton.2 ?_⟩
    · exact ⟨halves_whole.1.start, halves_whole.1.duration,
        halves_whole.1.trim, halves_whole.1.speed⟩
    · exact ⟨halves_whole.2.start, halves_whole.2.duration,
        halves_whole.2.trim, halves_whole.2.speed⟩
  · exact List.forall_mem_cons.2 ⟨noNaN_of_unfiltered rfl rfl,
      List.forall_mem_singleton.2 (noNaN_of_unfiltered rfl rfl)⟩
  · have hd : timelineDuration louderHalf.clips = .ok (.int 2000) := by
      decide +kernel
    exact exports_of_open rfl rfl le_rfl hd (by norm_num)
  · obtain ⟨joined, hp, hsegments⟩ := exists_of_map_eq hplan
    obtain ⟨g, rest, hjoined, hg, hrest⟩ := List.map_eq_cons_iff.1 hsegments
    obtain rfl := List.map_eq_nil_iff.1 hrest
    obtain ⟨p, more, hgp, hvp, hmore⟩ := List.map_eq_cons_iff.1 hg
    obtain ⟨n, last, rfl, hvn, hlast⟩ := List.map_eq_cons_iff.1 hmore
    obtain rfl := List.map_eq_nil_iff.1 hlast
    refine ⟨joined, g, p, n, _, _, hp, hjoined, hgp, hvolume p _ hvp,
      hvolume n _ hvn, ?_⟩
    have hx : (9007199254740992 : Number).value = 9007199254740992 := by
      exact Int.cast_natCast _
    have hy : (9007199254740993 : Number).value = 9007199254740993 := by
      exact Int.cast_natCast _
    rw [hx, hy]
    norm_num

end Montage
