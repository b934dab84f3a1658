import Montage.Proofs.Export.Determined
import Montage.Proofs.Export.SplitJoint
import Montage.Proofs.Timeline.Collapsing

/-!
The plan of a timeline with a clip that is split.

With the clip in place of its parts, the segments of the split timeline play what those of the
unsplit one play.  At most one of them has been cut in two, where the clip is split, and joining
does not see it.
-/

namespace Montage

/-- Segments that are changed, but not in length and place, tile as before. -/
theorem Tiles.map {f : Segment → Segment} (hstart : ∀ s, (f s).start = s.start)
    (hstop : ∀ s, (f s).stop = s.stop) {a b : Place} {segments : List Segment}
    (h : Tiles a b segments) : Tiles a b (segments.map f) := by
  induction segments generalizing a with
  | nil => exact h
  | cons s rest ih =>
      obtain ⟨ha, e, he, hae, hrest⟩ := h
      exact ⟨(hstart s).symm ▸ ha, e, (hstop s).symm ▸ he, hae, ih hrest⟩

namespace ClipSplit

variable {k : ClipSplit} {sources : Sources} {s t : Segment}

/-- With the clip in place of its parts, a segment shows what wins on the unsplit timeline. -/
theorem shows_renamed (h : Shows sources k.parts s) :
    Shows sources k.whole (s.renamed k.read) := by
  have hrun : ∀ w : Option Clip, extendRun [] (w.toList.map k.read) = (w.map k.read).toList := by
    intro w
    cases w <;> rfl
  refine ⟨?_, ?_, h.lasts⟩
  · intro u hu channel
    rw [Segment.run_renamed, h.plays u hu channel, hrun, winner_parts]
  · intro channel
    obtain ⟨w, hw⟩ := h.single channel
    exact ⟨w.map k.read, by rw [Segment.run_renamed, hw, hrun]⟩

/-- Where the clip is split, each channel goes on with what it has played. -/
theorem read_tail?_eq (hs : Shows sources k.parts s) (ht : Shows sources k.parts t)
    (hstop : s.stop = .int k.time) (hstart : t.start = .int k.time) (channel : Channel) :
    (s.tail? channel).map k.read = (t.winner? channel).map k.read := by
  obtain ⟨p, e, hp, he, hp0, hpe⟩ := hs.lasts
  obtain ⟨q, e', hq, he', -, hqe⟩ := ht.lasts
  obtain rfl : .point (k.time * unitsInOne) = e := by
    rw [hstop, Number.place?_int] at he
    exact Option.some.inj he
  obtain rfl : .point (k.time * unitsInOne) = q := by
    rw [hstart, Number.place?_int] at hq
    exact Option.some.inj hq
  have hlast : Place.point ((k.time - 1) * unitsInOne) < .point (k.time * unitsInOne) :=
    Place.point_lt_point.2 (mul_lt_mul_of_pos_right (by omega) Number.units_pos)
  -- an instant of the first segment, shortly before the split
  obtain ⟨u, -, hlate, hbefore⟩ := exists_instant (hp0.trans (le_max_left p _)) (max_lt hpe hlast)
  obtain ⟨hpu, hnear⟩ := max_le_iff.1 hlate
  have hnear : ((k.time - 1 : Int) : ℚ) ≤ u :=
    Number.reachedAt_int.1 ((Number.reachedAt_iff (Number.place?_int _)).2 hnear)
  have hearly : u < k.time :=
    Number.isAfter_int.1 ((Number.isAfter_iff (Number.place?_int _)).2 hbefore)
  push_cast at hnear
  have hplace : Place.ofInstant (k.time : ℚ) = .point (k.time * unitsInOne) := by
    rw [← Place.ofInstant_div (k.time * unitsInOne), Int.cast_mul, Int.cast_natCast,
      mul_div_cancel_right₀ _ Number.unitsInOne_rat_pos.ne']
  have hsu : s.holds u = true := (Segment.holds_iff hp he).2 ⟨hpu, hbefore⟩
  have htu : t.holds k.time = true :=
    (Segment.holds_iff hq he').2 ⟨hplace.ge, hplace ▸ hqe⟩
  rw [Segment.Single.tail?_eq hs.single, hs.winner?_eq hsu, ht.winner?_eq htu, winner_parts,
    winner_parts, winner_across hnear hearly]

/-- Segments of the split timeline that meet at a whole time. -/
theorem meets_of_shows (hs : Shows sources k.parts s) (ht : Shows sources k.parts t)
    (hseam : IsSeam s.stop t.start) : k.Meets s t := by
  obtain ⟨hsame, m, hm⟩ := hseam
  have hstop : s.stop = .int m := hsame.trans hm
  obtain ⟨p, e, hp, he, -, hpe⟩ := hs.lasts
  obtain ⟨q, e', hq, he', -, hqe⟩ := ht.lasts
  have htail : ∀ {channel c}, s.tail? channel = some c → c ∈ s.run channel :=
    List.mem_of_getLast?
  have hwinner : ∀ {channel c}, t.winner? channel = some c → c ∈ t.run channel :=
    List.mem_of_head?
  have hfirst := (counts_first (k := k)).stop_eq
  rw [add_sub_cancel] at hfirst
  have hsecond := (counts_second (k := k)).stop_eq
  refine ⟨m, hs.carries.within, ht.carries.within, hstop, hm, ?_, ?_, ?_, ?_, ?_, ?_⟩
  · intro c hc
    obtain ⟨u, hu⟩ := hs.carries.played .video c (htail hc)
    rw [candidates, List.mem_filter, Bool.and_eq_true, Bool.and_eq_true] at hu
    exact hu.2.2.1
  · intro channel hc
    have hspan := (hs.clip_spans (htail hc) counts_first.start_eq hfirst).2
    rw [hstop] at hspan
    exact Number.int_le_int.1 hspan
  · intro channel hc
    have hspan := (hs.clip_spans (htail hc) counts_second.start_eq hsecond).1
    have hlt : s.start.lt (.int m) = true := (Number.lt_iff hp (hstop ▸ he)).2 hpe
    exact Number.int_lt_int.1 (Number.lt_of_le_of_lt hspan hlt)
  · intro channel hc
    have hspan := (ht.clip_spans (hwinner hc) counts_first.start_eq hfirst).2
    have hlt : (Number.int m).lt t.stop = true := (Number.lt_iff (hm ▸ hq) he').2 hqe
    exact Number.int_lt_int.1 (Number.lt_of_lt_of_le hlt hspan)
  · intro channel hc
    have hspan := (ht.clip_spans (hwinner hc) counts_second.start_eq hsecond).1
    rw [hm] at hspan
    exact Number.int_le_int.1 hspan
  · rintro rfl channel
    exact read_tail?_eq hs ht hstop hm channel

end ClipSplit

namespace Snapshot

/-- The snapshot with other clips. -/
def playing (s : Snapshot) (clips : List Clip) : Snapshot := { s with clips := clips }

variable {s : Snapshot} {k : ClipSplit} {infos : Option (List (String × MediaInfo))}
  {range : ExportRange} {segments segments' : List Segment} {a a' b b' : Place}

/-- The parts end together as late as the clip. -/
theorem exports_parts_iff {t : Instant} :
    (s.playing k.parts).Exports t ↔ (s.playing k.whole).Exports t := by
  have hends : (∃ c ∈ k.parts, ∃ e, c.stop = .ok e ∧ e.isAfter t = true) ↔
      ∃ c ∈ k.whole, ∃ e, c.stop = .ok e ∧ e.isAfter t = true := by
    have hsecond : k.second.stop = k.clip.stop := by
      rw [ClipSplit.counts_second.stop_eq, k.counts.stop_eq, add_sub_cancel]
    have hunfinished : (k.time : ℚ) < (k.start + k.length : Int) := Int.cast_lt.2 k.unfinished
    constructor
    · rintro ⟨c, hc, e, he, hafter⟩
      rcases ClipSplit.mem_parts.1 hc with rfl | rfl | hc
      · rw [ClipSplit.counts_first.stop_eq, add_sub_cancel] at he
        obtain rfl := Except.ok.inj he
        rw [Number.isAfter_int] at hafter
        exact ⟨k.clip, ClipSplit.mem_whole.2 (Or.inl rfl), _, k.counts.stop_eq,
          Number.isAfter_int.2 (hafter.trans hunfinished)⟩
      · exact ⟨k.clip, ClipSplit.mem_whole.2 (Or.inl rfl), e, hsecond ▸ he, hafter⟩
      · exact ⟨c, ClipSplit.mem_whole.2 (Or.inr hc), e, he, hafter⟩
    · rintro ⟨c, hc, e, he, hafter⟩
      rcases ClipSplit.mem_whole.1 hc with rfl | hc
      · exact ⟨k.second, ClipSplit.mem_parts.2 (Or.inr (Or.inl rfl)), e, hsecond.trans he,
          hafter⟩
      · exact ⟨c, ClipSplit.mem_parts.2 (Or.inr (Or.inr hc)), e, he, hafter⟩
  rw [exports_iff_of_wholeTimed (s := s.playing k.parts)
      fun c hc => (ClipSplit.forall_parts_whole c hc).wholeTimed,
    exports_iff_of_wholeTimed (s := s.playing k.whole)
      fun c hc => (ClipSplit.forall_whole c hc).wholeTimed]
  exact and_congr_right fun _ => and_congr_left fun _ => hends

section Split

variable (h : (s.playing k.whole).Prepared infos range segments a b)
  (h' : (s.playing k.parts).Prepared infos range segments' a' b')
include h'

/-- The segments of the split timeline, with the clip in place of its parts. -/
theorem shows_of_split : ∀ u ∈ segments', Shows (s.sources infos) k.parts u := by
  obtain ⟨c, hcut⟩ := h'.exists_cut
  exact hcut.shows

theorem meets_of_split : segments'.IsChain k.Meets :=
  h'.seams.imp_of_mem_imp fun _ _ hu hv hseam =>
    ClipSplit.meets_of_shows (shows_of_split h' _ hu) (shows_of_split h' _ hv) hseam

theorem plain_of_split : ∀ u ∈ segments'.map (Segment.renamed k.read), u.Plain k.whole := by
  intro u hu
  obtain ⟨v, hv, rfl⟩ := List.mem_map.1 hu
  have hshows := ClipSplit.shows_renamed (shows_of_split h' v hv)
  exact ⟨hshows.single, hshows.carries.within⟩

theorem seams_of_split :
    (segments'.map (Segment.renamed k.read)).IsChain fun u v => IsSeam u.stop v.start :=
  (List.isChain_map (Segment.renamed k.read)).2 h'.seams

include h

/-- The segments of the unsplit timeline are those of the split one, with the clip in place of its
parts and neighbours of the same winners put together. -/
theorem sameSlots_of_split :
    List.Forall₂ Segment.SameSlot segments (collapse (segments'.map (Segment.renamed k.read))) := by
  obtain ⟨e, hset⟩ := h.set
  obtain ⟨e', hset'⟩ := h'.set
  obtain rfl : a = a' := Option.some.inj (hset.start_eq.symm.trans hset'.start_eq)
  obtain rfl : b = b' := le_antisymm
    (h.le_of_exports h' fun t => exports_parts_iff.2)
    (h'.le_of_exports h fun t => exports_parts_iff.1)
  have hfollows : ∀ u ∈ segments'.map (Segment.renamed k.read), u.Follows fun t channel =>
      (topmost? (candidates (s.sources infos) k.whole t channel)).toList := by
    intro u hu
    obtain ⟨v, hv, rfl⟩ := List.mem_map.1 hu
    exact (ClipSplit.shows_renamed (shows_of_split h' v hv)).plays
  obtain ⟨htiles, hfollows⟩ := collapse_follows (coherent_of_nodup ClipSplit.nodup_whole)
    (h'.tiles.map (f := Segment.renamed k.read) (fun _ => rfl) fun _ => rfl) (plain_of_split h')
    hfollows
  exact h.tiles.forall₂_sameSlot htiles hset.nonneg h.plays hfollows h.differs
    ((collapse_isChain _).imp fun _ _ => Segment.differs_of_sameWinners_eq_false)

/-- What is joined of the two timelines is alike, with the clip in place of its parts. -/
theorem alike_of_split {rule : FilterRule}
    (hrule : rule k.first = rule k.clip ∧ rule k.second = rule k.clip)
    (hsettled : (rule k.clip).Settled) :
    Option.Rel Joined.Alike (joinAll rule segments)
      ((joinAll rule segments').map (Joined.renamed k.read)) := by
  have hseams := seams_of_split h'
  have hclose : (segments'.map (Segment.renamed k.read)).IsChain fun u v =>
      closeTimes u.stop v.start = .ok true := by
    refine hseams.imp ?_
    rintro u v ⟨hsame, m, hm⟩
    rw [hsame, hm, closeTimes_int, decide_eq_true rfl]
  rw [← ClipSplit.joinAll_renamed hrule hsettled (meets_of_split h'),
    ← joinAll_collapse (coherent_of_nodup ClipSplit.nodup_whole) (plain_of_split h') hclose]
  exact joinAll_alike (sameSlots_of_split h h') h.seams (collapse_isChain_of hseams)

end Split

section Plans

variable {rule : Option FilterRule}

theorem exists_prepared_of_split (k : ClipSplit) (infos : Option (List (String × MediaInfo)))
    (hrange : s.range? = .ok (some range)) :
    (∃ segments a b, (s.playing k.whole).Prepared infos range segments a b) ∧
      ∃ segments a b, (s.playing k.parts).Prepared infos range segments a b :=
  ⟨exists_prepared (s := s.playing k.whole) infos ClipSplit.nodup_whole
      (fun c hc => (ClipSplit.forall_whole c hc).wholeTimed) hrange,
    exists_prepared (s := s.playing k.parts) infos ClipSplit.nodup_parts
      (fun c hc => (ClipSplit.forall_parts_whole c hc).wholeTimed) hrange⟩

/-- The plans of the two timelines are alike, with the clip in place of its parts. -/
theorem plansAlike_of_split (infos : Option (List (String × MediaInfo)))
    (hrule : s.ruleFor rule k.first = s.ruleFor rule k.clip ∧
      s.ruleFor rule k.second = s.ruleFor rule k.clip)
    (hsettled : (s.ruleFor rule k.clip).Settled) :
    PlansAlike ((s.playing k.whole).planSegments infos rule)
      (((s.playing k.parts).planSegments infos rule).map
        (Option.map (Joined.renamed k.read))) := by
  by_cases hsome : ∃ range, s.range? = .ok (some range)
  · obtain ⟨range, hrange⟩ := hsome
    obtain ⟨⟨segments, a, b, h⟩, segments', a', b', h'⟩ :=
      exists_prepared_of_split k infos hrange
    have halike := alike_of_split h h' hrule hsettled
    rw [h.plan_eq, h'.plan_eq]
    change PlansAlike ((outcome (joinAll (s.ruleFor rule) segments)).map some)
      (((outcome (joinAll (s.ruleFor rule) segments')).map some).map
        (Option.map (Joined.renamed k.read)))
    generalize joinAll (s.ruleFor rule) segments = joined,
      joinAll (s.ruleFor rule) segments' = joined' at halike
    rcases joined' with _ | joined'
    · cases halike
      exact .fault _
    · cases halike with
      | some hr => exact .some hr
  · rw [not_exists] at hsome
    rw [planSegments_of_no_range (s := s.playing k.whole) (exists_resolve infos
        ClipSplit.nodup_whole fun c hc => (ClipSplit.forall_whole c hc).wholeTimed) hsome,
      planSegments_of_no_range (s := s.playing k.parts) (exists_resolve infos
        ClipSplit.nodup_parts fun c hc => (ClipSplit.forall_parts_whole c hc).wholeTimed) hsome]
    change PlansAlike (s.range?.map fun _ => none)
      ((s.range?.map fun _ => none).map (Option.map (Joined.renamed k.read)))
    cases s.range? with
    | error f => exact .fault f
    | ok range => exact .none

end Plans

end Snapshot

end Montage
