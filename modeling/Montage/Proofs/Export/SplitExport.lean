import Montage.Proofs.Export.Content
import Montage.Proofs.Export.SourceWindow
import Montage.Proofs.Export.SplitPlan
import Montage.Proofs.Snapshot.Reading

/-!
Exporting a timeline with a clip that is split.

The parts play the source of the clip along its line, so what is exported from them shows the same
windows, and needs rendering where the clip does.
-/

namespace Montage

namespace ClipSplit

variable {k : ClipSplit} {sources : Sources} {t : Instant} {channel : Channel} {c d d' : Clip}

/-- A part plays its source along the line of the clip. -/
theorem sourceAt_read (hd : d ∈ k.parts) (t : Instant) :
    (k.read d).sourceAt t = d.sourceAt t := by
  rcases mem_parts.1 hd with rfl | rfl | hd
  · rw [read_first, k.counts.sourceAt_forward k.forward, counts_first.sourceAt_forward k.forward]
  · rw [read_second, k.counts.sourceAt_forward k.forward,
      counts_second.sourceAt_forward k.forward]
    push_cast
    ring
  · rw [read_of_mem_others hd]

/-- Times that the clips end at within their bounds are within them for the parts as well. -/
theorem fitsIn_parts {Holds : Int → Number → Prop} {fits : Int → Prop}
    (h : ExactArithmetic Holds fits) (hfits : ∀ d ∈ k.whole, d.FitsIn fits) :
    ∀ d ∈ k.parts, d.FitsIn fits := by
  have hstarted := k.started
  have hunfinished := k.unfinished
  have hnonneg := k.nonneg
  obtain ⟨start, length, trim, speed, hcounts, htrim, hend, hsource⟩ :=
    hfits k.clip (mem_whole.2 (Or.inl rfl))
  obtain ⟨rfl, rfl, rfl, rfl⟩ := k.counts.unique hcounts
  have hspeed := k.one_le_speed
  have hbefore : 0 ≤ (k.time - k.start) * k.speed := mul_nonneg (by omega) (by omega)
  have hafter : 0 ≤ (k.start + k.length - k.time) * k.speed := mul_nonneg (by omega) (by omega)
  have hall : k.length * k.speed = (k.time - k.start) * k.speed +
      (k.start + k.length - k.time) * k.speed := by ring
  intro d hd
  rcases mem_parts.1 hd with rfl | rfl | hd
  · exact ⟨_, _, _, _, counts_first, htrim, h.between (by omega) (by omega) hend,
      h.between (by omega) (by omega) hsource⟩
  · refine ⟨_, _, _, _, counts_second, by omega, ?_, ?_⟩
    · rw [add_sub_cancel]
      exact hend
    · rw [add_assoc, ← hall]
      exact hsource
  · exact hfits d (mem_whole.2 (Or.inr hd))

/-- At each instant the winner is what wins among the parts, with the clip in their place. -/
theorem isWinner_read_iff : IsWinner (some c) (candidates sources k.whole t channel) ↔
    ∃ d, IsWinner (some d) (candidates sources k.parts t channel) ∧ k.read d = c := by
  simp only [isWinner_iff, ← winner_parts, Option.map_eq_some_iff]

/-- At one instant only one of the parts plays. -/
theorem eq_of_isOn (hd : d ∈ k.parts) (hd' : d' ∈ k.parts) (hon : d.isOn t = true)
    (hon' : d'.isOn t = true) (h : k.read d = k.read d') : d = d' := by
  rcases eq_of_read_eq hd hd' h with rfl | ⟨rfl | rfl, rfl | rfl⟩
  · rfl
  · rfl
  · exact absurd (isOn_first.1 hon).2 (not_lt.2 (isOn_second.1 hon').1)
  · exact absurd (isOn_first.1 hon').2 (not_lt.2 (isOn_second.1 hon).1)
  · rfl

end ClipSplit

/-- Where the windows of two segments are not rounded, they are the same. -/
def Segment.WindowsAgree (g g' : Segment) : Prop :=
  ∀ channel c c', g.winner? channel = some c → g'.winner? channel = some c' →
    ∀ w w', g.window c = .ok w → g'.window c' = .ok w' → w.Unrounded c g → w'.Unrounded c' g' →
      w.Same w'

/-- The winners of two segments have the same windows. -/
def Segment.SameWindows (g g' : Segment) : Prop :=
  ∀ channel c c', g.winner? channel = some c → g'.winner? channel = some c' →
    ∃ w w', g.window c = .ok w ∧ g'.window c' = .ok w' ∧ w.Same w'

section Windows

variable {k : ClipSplit} {g g' : Segment}

/-- Where the clip or one of its parts plays, the windows are the same. -/
theorem windowsAgree_of_slot (hwithin : g'.Within k.parts)
    (hslot : g.SameSlot (g'.renamed k.read)) : g.WindowsAgree g' := by
  rintro channel c c' hc hc' w w' - - hw hw'
  have hmem : c' ∈ k.parts := hwithin channel c' (List.mem_of_head? hc')
  have hread : c = k.read c' := by
    have hwinner := g'.winner?_renamed (f := k.read) channel
    rw [Segment.winner?, ← hslot.run_eq] at hwinner
    rw [Segment.winner?] at hc
    rw [hc, hc'] at hwinner
    exact Option.some.inj hwinner
  subst hread
  have hcopies := ClipSplit.copies_read hmem
  have hspeed : (k.read c').playSpeed.eq c'.playSpeed = true := by
    obtain ⟨v, hv, -⟩ := (ClipSplit.forall_parts_whole c' hmem).speed
    rw [hcopies.speed_eq, hv]
    exact Number.int_eq_int.2 rfl
  have hstart' : g.start.value = g'.start.value := Number.value_eq_of_eq hslot.start_eq
  have hstop' : g.stop.value = g'.stop.value := Number.value_eq_of_eq hslot.stop_eq
  refine hw.same hw' hcopies.reversed_eq hspeed ?_ ?_
  · rw [hstart', ClipSplit.sourceAt_read hmem]
  · rw [hstop', ClipSplit.sourceAt_read hmem]

/-- Windows that are not rounded are there, and are the same. -/
theorem Segment.WindowsAgree.sameWindows (h : g.WindowsAgree g') (hg : g.Unrounded)
    (hg' : g'.Unrounded) : g.SameWindows g' := by
  intro channel c c' hc hc'
  obtain ⟨w, hw, hexact⟩ := hg channel c hc
  obtain ⟨w', hw', hexact'⟩ := hg' channel c' hc'
  exact ⟨w, w', hw, hw', h channel c c' hc hc' w w' hw hw' hexact hexact'⟩

end Windows

namespace Snapshot

variable {s : Snapshot} {k : ClipSplit} {infos : Option (List (String × MediaInfo))}
  {rule : Option FilterRule} {joined joined' : Joined}

/-- Where no time of the clips is rounded, none of the parts is. -/
theorem timesFit_parts (h : (s.playing k.whole).TimesFit) : (s.playing k.parts).TimesFit := by
  cases h with
  | unset hopen hfits => exact .unset hopen (ClipSplit.fitsIn_parts exactArithmetic_int hfits)
  | small hstart hstop hfits =>
      exact .small hstart hstop (ClipSplit.fitsIn_parts exactArithmetic_whole hfits)

section Plans

variable (hrule : s.ruleFor rule k.first = s.ruleFor rule k.clip ∧
    s.ruleFor rule k.second = s.ruleFor rule k.clip)
  (hsettled : (s.ruleFor rule k.clip).Settled)
  (hplan : (s.playing k.whole).planSegments infos rule = .ok (some joined))
  (hplan' : (s.playing k.parts).planSegments infos rule = .ok (some joined'))
include hrule hsettled hplan hplan'

/-- The planned segments of the two timelines have the same windows, where these are not
rounded. -/
theorem windowsAgree_of_split :
    List.Forall₂ Segment.WindowsAgree joined.segments joined'.segments := by
  obtain ⟨-, range, -, hrange⟩ := planSegments_cases hplan
  obtain ⟨⟨segments, a, b, h⟩, segments', a', b', h'⟩ := exists_prepared_of_split k infos hrange
  have halike := alike_of_split h h' hrule hsettled
  rw [show joinAll (s.ruleFor rule) segments = some joined from h.joins hplan,
    show joinAll (s.ruleFor rule) segments' = some joined' from h'.joins hplan'] at halike
  cases halike with
  | some halike =>
      obtain ⟨c, hcut⟩ := h'.exists_cut
      have hslots := halike.segments
      rw [Joined.renamed, List.forall₂_map_right_iff] at hslots
      refine forall₂_imp_of_mem hslots fun g _ g' hg' hslot => windowsAgree_of_slot ?_ hslot
      exact (joinAll_carries (coherent_of_nodup ClipSplit.nodup_parts) hcut.tiles hcut.shows
        (h'.joins hplan') g' hg').within

theorem sameWindows_of_split (hfit : (s.playing k.whole).TimesFit) :
    List.Forall₂ Segment.SameWindows joined.segments joined'.segments := by
  obtain ⟨-, range, -, hrange⟩ := planSegments_cases hplan
  obtain ⟨⟨segments, a, b, h⟩, segments', a', b', h'⟩ := exists_prepared_of_split k infos hrange
  have hunrounded := h.unrounded_of_timesFit hrange ClipSplit.nodup_whole ClipSplit.forall_whole
    hfit (h.joins hplan)
  have hunrounded' := h'.unrounded_of_timesFit hrange ClipSplit.nodup_parts
    ClipSplit.forall_parts_whole (timesFit_parts hfit) (h'.joins hplan')
  exact forall₂_imp_of_mem (windowsAgree_of_split hrule hsettled hplan hplan')
    fun g hg g' hg' hagree => hagree.sameWindows (hunrounded g hg) (hunrounded' g' hg')

end Plans

end Snapshot

namespace ClipSplit

variable {k : ClipSplit} {sources : Sources} {context : CopyContext} {m : Media} {t : Instant}

/-- There is something to play among the parts where there is with the clip. -/
theorem hasContent_parts_iff :
    HasContent sources k.parts t ↔ HasContent sources k.whole t := by
  have hmedia : ∀ {channel d}, IsWinner (some d) (candidates sources k.parts t channel) →
      sources.mediaOf? (k.read d) = sources.mediaOf? d := by
    intro channel d hd
    rw [Sources.mediaOf?, Sources.mediaOf?,
      (copies_read (candidates_subset (IsTopmost.mem hd))).media_eq]
  constructor
  · rintro ⟨⟨channel, d, hd⟩, honline⟩
    refine ⟨⟨channel, k.read d, isWinner_read_iff.2 ⟨d, hd, rfl⟩⟩, ?_⟩
    intro channel c hc
    obtain ⟨d, hd, rfl⟩ := isWinner_read_iff.1 hc
    rw [hmedia hd]
    exact honline channel d hd
  · rintro ⟨⟨channel, c, hc⟩, honline⟩
    obtain ⟨d, hd, -⟩ := isWinner_read_iff.1 hc
    refine ⟨⟨channel, d, hd⟩, ?_⟩
    intro channel d hd
    rw [← hmedia hd]
    exact honline channel (k.read d) (isWinner_read_iff.2 ⟨d, hd, rfl⟩)

/-- A part is played as it is where the clip would be. -/
theorem playsUntouched_parts_iff
    (hrule : context.rule k.first = context.rule k.clip ∧
      context.rule k.second = context.rule k.clip) :
    (∃ d, PlaysUntouched context k.parts m t d) ↔ ∃ c, PlaysUntouched context k.whole m t c := by
  constructor
  · rintro ⟨d, hd⟩
    have hmem : d ∈ k.parts := candidates_subset (IsTopmost.mem hd.heard)
    obtain ⟨hmedia, -, hspeed, hreversed, hmuted, hvisible⟩ := copies_read hmem
    exact ⟨k.read d, isWinner_read_iff.2 ⟨d, hd.heard, rfl⟩, isWinner_read_iff.2 ⟨d, hd.seen, rfl⟩,
      hmedia.trans hd.media, hspeed ▸ hd.speed, hreversed.trans hd.forward,
      hmuted.trans hd.unmuted, hvisible.trans hd.visible, rule_read hrule hmem ▸ hd.neutral⟩
  · rintro ⟨c, hc⟩
    obtain ⟨d, hheard, rfl⟩ := isWinner_read_iff.1 hc.heard
    obtain ⟨d', hseen, hsame⟩ := isWinner_read_iff.1 hc.seen
    have hmem : d ∈ k.parts := candidates_subset (IsTopmost.mem hheard)
    -- the parts do not play together, so that one of them is both heard and seen
    obtain rfl : d' = d := eq_of_isOn (candidates_subset (IsTopmost.mem hseen)) hmem
      (isOn_of_mem_candidates (IsTopmost.mem hseen))
      (isOn_of_mem_candidates (IsTopmost.mem hheard)) hsame
    obtain ⟨hmedia, -, hspeed, hreversed, hmuted, hvisible⟩ := copies_read hmem
    exact ⟨d', hheard, hseen, hmedia.symm.trans hc.media, hspeed ▸ hc.speed,
      hreversed.symm.trans hc.forward, hmuted.symm.trans hc.unmuted,
      hvisible.symm.trans hc.visible, rule_read hrule hmem ▸ hc.neutral⟩

/-- Where binary64 holds the times of the clips and that of the split, it holds those of the
parts. -/
theorem exact_parts
    (hexact : ∀ c ∈ k.whole, c.start.IsExact ∧ ∀ e, c.stop = .ok e → e.IsExact)
    (htime : (Number.int k.time).IsExact) :
    ∀ d ∈ k.parts, d.start.IsExact ∧ ∀ e, d.stop = .ok e → e.IsExact := by
  obtain ⟨hstart, hstop⟩ := hexact k.clip (mem_whole.2 (Or.inl rfl))
  intro d hd
  rcases mem_parts.1 hd with rfl | rfl | hd
  · refine ⟨hstart, ?_⟩
    intro e he
    rw [counts_first.stop_eq, add_sub_cancel] at he
    exact Except.ok.inj he ▸ htime
  · refine ⟨htime, ?_⟩
    intro e he
    rw [counts_second.stop_eq, add_sub_cancel] at he
    exact hstop e (k.counts.stop_eq.trans he)
  · exact hexact d (mem_whole.2 (Or.inr hd))

end ClipSplit

namespace Snapshot

variable {s : Snapshot} {k : ClipSplit} {infos : Option (List (String × MediaInfo))}
  {rule : Option FilterRule}

theorem needsNoRendering_parts_iff
    (hrule : s.ruleFor rule k.first = s.ruleFor rule k.clip ∧
      s.ruleFor rule k.second = s.ruleFor rule k.clip) :
    (s.playing k.parts).NeedsNoRendering infos rule ↔
      (s.playing k.whole).NeedsNoRendering infos rule := by
  refine and_congr_right fun _ => exists_congr fun m => and_congr_right fun _ => forall_congr' ?_
  intro t
  exact imp_congr exports_parts_iff (ClipSplit.playsUntouched_parts_iff hrule)

/-- Nothing is rendered from the one timeline and copied from the other. -/
theorem copied_eq_of_split
    (hrule : s.ruleFor rule k.first = s.ruleFor rule k.clip ∧
      s.ruleFor rule k.second = s.ruleFor rule k.clip)
    (hexact : ∀ c ∈ k.whole, c.start.IsExact ∧ ∀ e, c.stop = .ok e → e.IsExact)
    (htime : (Number.int k.time).IsExact) {o o' : Option ExportResult}
    (h : (s.playing k.whole).compile infos rule = .ok o)
    (h' : (s.playing k.parts).compile infos rule = .ok o') :
    o.map ExportResult.copied = o'.map ExportResult.copied := by
  have hids : ((s.playing k.whole).clips.map Clip.id).Nodup := ClipSplit.nodup_whole
  have hids' : ((s.playing k.parts).clips.map Clip.id).Nodup := ClipSplit.nodup_parts
  have htimed : ∀ c ∈ (s.playing k.whole).clips, c.WellTimed :=
    fun c hc => (ClipSplit.forall_whole c hc).wholeTimed.wellTimed
  have htimed' : ∀ c ∈ (s.playing k.parts).clips, c.WellTimed :=
    fun c hc => (ClipSplit.forall_parts_whole c hc).wholeTimed.wellTimed
  have hexact' := ClipSplit.exact_parts hexact htime
  rcases o with _ | r <;> rcases o' with _ | r'
  · rfl
  · obtain ⟨-, t, ht, hcontent, -⟩ := exists_content_of_compile_eq_some hids' htimed' h'
    have hlost := losesLength_of_compile_eq_none hids htimed h (exports_parts_iff.1 ht)
      (ClipSplit.hasContent_parts_iff.1 hcontent)
    exact absurd hlost (not_losesLength_of_exact hids htimed hexact t)
  · obtain ⟨-, t, ht, hcontent, -⟩ := exists_content_of_compile_eq_some hids htimed h
    have hlost := losesLength_of_compile_eq_none hids' htimed' h' (exports_parts_iff.2 ht)
      (ClipSplit.hasContent_parts_iff.2 hcontent)
    exact absurd hlost (not_losesLength_of_exact hids' htimed' hexact' t)
  · have hcopied : r.copied = true ↔ r'.copied = true := by
      constructor
      · intro hr
        exact copied_of_exact hids' htimed' h' hexact' ((needsNoRendering_parts_iff hrule).2
          (needsNoRendering_of_copied hids htimed h hr))
      · intro hr
        exact copied_of_exact hids htimed h hexact ((needsNoRendering_parts_iff hrule).1
          (needsNoRendering_of_copied hids' htimed' h' hr))
    rw [Option.map_some, Option.map_some, Bool.eq_iff_iff.2 hcopied]

/-- A snapshot with the parts is well formed when the one with the clip is. -/
theorem WellFormed.parts (h : (s.playing k.whole).WellFormed) :
    (s.playing k.parts).WellFormed where
  ids := ClipSplit.nodup_parts
  starts c hc := by
    obtain ⟨n, hn, hn0⟩ := (ClipSplit.forall_parts_whole c hc).start
    rw [hn]
    exact Bool.eq_false_iff.2 fun hlt => absurd (Number.int_lt_int.1 hlt) (not_lt.2 hn0)
  durations c hc := by
    obtain ⟨n, hn, hn0⟩ := (ClipSplit.forall_parts_whole c hc).duration
    rw [hn]
    exact Bool.eq_false_iff.2 fun hle => absurd (Number.int_le_int.1 hle) (not_le.2 hn0)
  media := h.media
  settings := h.settings

/-- Splitting a clip does not change what is exported.  The plans are the same once the parts are
read as the clip and repeats are collapsed, the windows are the same where they are not rounded,
and where binary64 holds the times of the clips and that of the split, the export is copied if it
has been before. -/
theorem export_of_split (s : Snapshot) (k : ClipSplit)
    (infos : Option (List (String × MediaInfo))) (rule : Option FilterRule)
    (hrule : s.ruleFor rule k.first = s.ruleFor rule k.clip ∧
      s.ruleFor rule k.second = s.ruleFor rule k.clip)
    (hsettled : (s.ruleFor rule k.clip).Settled) :
    PlansAlike ((s.playing k.whole).planSegments infos rule)
        (((s.playing k.parts).planSegments infos rule).map
          (Option.map (Joined.renamed k.read))) ∧
      ((∃ range, s.range? = .ok range) → (∀ c ∈ k.whole, (s.ruleFor rule c).HasVolume) →
        ∃ plan, (s.playing k.whole).planSegments infos rule = .ok plan) ∧
      (∀ joined joined', (s.playing k.whole).planSegments infos rule = .ok (some joined) →
        (s.playing k.parts).planSegments infos rule = .ok (some joined') →
          List.Forall₂ Segment.WindowsAgree joined.segments joined'.segments ∧
          ((s.playing k.whole).TimesFit →
            List.Forall₂ Segment.SameWindows joined.segments joined'.segments)) ∧
      ((∀ c ∈ k.whole, c.start.IsExact ∧ ∀ e, c.stop = .ok e → e.IsExact) →
        (Number.int k.time).IsExact →
          (∀ o o', (s.playing k.whole).compile infos rule = .ok o →
            (s.playing k.parts).compile infos rule = .ok o' →
              o.map ExportResult.copied = o'.map ExportResult.copied) ∧
          ((s.playing k.whole).WellFormed →
            (s.playing k.whole).Moderate (s.ruleFor rule) →
            (s.playing k.parts).Moderate (s.ruleFor rule) →
              ∃ o o', (s.playing k.whole).compile infos rule = .ok o ∧
                (s.playing k.parts).compile infos rule = .ok o')) := by
  refine ⟨plansAlike_of_split infos hrule hsettled, ?_, ?_, ?_⟩
  · intro hrange hvolumes
    exact exists_plan_of_whole infos ClipSplit.nodup_whole ClipSplit.forall_whole hrange hvolumes
  · intro joined joined' hplan hplan'
    exact ⟨windowsAgree_of_split hrule hsettled hplan hplan',
      sameWindows_of_split hrule hsettled hplan hplan'⟩
  · intro hexact htime
    refine ⟨fun o o' h h' => copied_eq_of_split hrule hexact htime h h', ?_⟩
    intro hs hwhole hparts
    obtain ⟨o, h, -⟩ := hs.gives_compile infos rule hwhole
    obtain ⟨o', h', -⟩ := (WellFormed.parts hs).gives_compile infos rule hparts
    exact ⟨o, o', h, h'⟩

end Snapshot

/-- A take from the start of a film. -/
def takeClip (start length speed : Int) : Clip :=
  { id := "take", mediaId := "film", track := 0, start := .int start
    duration := .int length, speed := some (.int speed) }

theorem counts_takeClip {start length speed : Int} (hspeed : 1 ≤ speed) :
    (takeClip start length speed).Counts start length 0 speed :=
  .of_fields rfl rfl rfl rfl (by omega)

theorem takeSplit_ids : ["first", "second"].Nodup := by decide

/-- The split of a take that is all there is. -/
def takeSplit (start length speed time : Int)
    (h : 0 ≤ start ∧ 1 ≤ speed ∧ start < time ∧ time < start + length) : ClipSplit where
  front := []
  clip := takeClip start length speed
  back := []
  start := start
  length := length
  trim := 0
  speed := speed
  time := time
  firstId := "first"
  secondId := "second"
  counts := counts_takeClip h.2.1
  forward := rfl
  nonneg := h.1
  one_le_speed := h.2.1
  started := h.2.2.1
  unfinished := h.2.2.2
  others_whole := List.forall_mem_nil _
  others_apart := List.forall_mem_nil _
  ids := List.nodup_singleton "take"
  part_ids := takeSplit_ids

/-- An export that begins at a time of the timeline, without fades at the joints. -/
def filmFrom (start : Number) : Snapshot where
  media := wholeFilm.media
  settings := { rangeStart := .number start, deClick := .bool false }

theorem settled_takeSplit (start : Number) {a d v t : Int}
    {h : 0 ≤ a ∧ 1 ≤ v ∧ a < t ∧ t < a + d} :
    ((filmFrom start).ruleFor none (takeSplit a d v t h).clip).Settled :=
  .of_number (noNaN_of_unfiltered rfl rfl) rfl (Number.bounded_one.fits (k := 0) (by decide)) rfl

theorem exact_takeSplit {a d v t : Int} {h : 0 ≤ a ∧ 1 ≤ v ∧ a < t ∧ t < a + d}
    (hstart : IsCount (a.natAbs * unitsInOne)) (hstop : IsCount ((a + d).natAbs * unitsInOne)) :
    ∀ c ∈ (takeSplit a d v t h).whole, c.start.IsExact ∧ ∀ e, c.stop = .ok e → e.IsExact := by
  refine List.forall_mem_singleton.2 ⟨Number.isExact_int hstart, ?_⟩
  intro e he
  obtain rfl : Number.int (a + d) = e := Except.ok.inj he
  exact Number.isExact_int hstop

/-- Two seconds of a film, split in the middle. -/
def evenSplit : ClipSplit := takeSplit 0 2000 1 1000 (by decide)

theorem evenSplit_fits : ((filmFrom 500).playing evenSplit.whole).TimesFit := by
  refine .small (Or.inr ⟨500, ?_, rfl⟩) (Or.inl rfl) (List.forall_mem_singleton.2 ?_)
  · exact Number.isExact_int (by decide +kernel)
  · exact ⟨0, 2000, 0, 1, evenSplit.counts, by decide, by decide, by decide⟩

theorem export_of_evenSplit :
    ((filmFrom 500).ruleFor none evenSplit.first = (filmFrom 500).ruleFor none evenSplit.clip ∧
      (filmFrom 500).ruleFor none evenSplit.second =
        (filmFrom 500).ruleFor none evenSplit.clip) ∧
      ((filmFrom 500).ruleFor none evenSplit.clip).Settled ∧
      ∃ joined joined' r r',
        ((filmFrom 500).playing evenSplit.whole).planSegments none none = .ok (some joined) ∧
        ((filmFrom 500).playing evenSplit.parts).planSegments none none = .ok (some joined') ∧
        joined.Alike (joined'.renamed evenSplit.read) ∧
        List.Forall₂ Segment.SameWindows joined.segments joined'.segments ∧
        ((filmFrom 500).playing evenSplit.whole).compile none none = .ok (some r) ∧
        ((filmFrom 500).playing evenSplit.parts).compile none none = .ok (some r') ∧
        r.copied = true ∧ r'.copied = true := by
  have hrule : (filmFrom 500).ruleFor none evenSplit.first =
      (filmFrom 500).ruleFor none evenSplit.clip ∧ (filmFrom 500).ruleFor none evenSplit.second =
        (filmFrom 500).ruleFor none evenSplit.clip := ⟨rfl, rfl⟩
  have hsettled : ((filmFrom 500).ruleFor none evenSplit.clip).Settled := settled_takeSplit 500
  obtain ⟨halike, hreturns, hwindows, hcopies⟩ :=
    Snapshot.export_of_split (filmFrom 500) evenSplit none none hrule hsettled
  have hcopied : (((filmFrom 500).playing evenSplit.whole).compile none none).map
      (·.map ExportResult.copied) = .ok (some true) := by
    decide +kernel
  have hformed : ((filmFrom 500).playing evenSplit.whole).WellFormed := by
    refine ⟨ClipSplit.nodup_whole, ?_, ?_, ?_, { Reading.wellFormed_default with }⟩
    · exact List.forall_mem_singleton.2 (by decide +kernel)
    · exact List.forall_mem_singleton.2 (by decide +kernel)
    · exact List.forall_mem_singleton.2
        (List.forall_mem_cons.2 ⟨⟨0, rfl⟩, List.forall_mem_singleton.2 ⟨0, rfl⟩⟩)
  obtain ⟨r, hr, hcopy⟩ := exists_of_map_eq hcopied
  obtain ⟨joined, hplan, -⟩ := Snapshot.compile_cases hr
  rw [hplan] at halike
  obtain ⟨read, hread, halike⟩ := halike.exists_of_some
  obtain ⟨joined', hplan', rfl⟩ := exists_of_map_eq hread
  obtain ⟨hsame, hmade⟩ := hcopies (exact_takeSplit (by decide +kernel) (by decide +kernel))
    (Number.isExact_int (by decide +kernel))
  obtain ⟨-, o', -, ho'⟩ := hmade hformed (by decide +kernel) (by decide +kernel)
  have hflag := hsame (some r) o' hr ho'
  rcases o' with _ | r'
  · exact absurd hflag (Option.some_ne_none _)
  · refine ⟨hrule, hsettled, joined, joined', r, r', hplan, hplan', halike,
      (hwindows joined joined' hplan hplan').2 evenSplit_fits, hr, ho', hcopy, ?_⟩
    exact (Option.some.inj hflag).symm.trans hcopy

/-- A take whose source is longer than `2 ^ 53`, split near its start. -/
def farSplit : ClipSplit := takeSplit 0 4503599627370496 3 3 (by decide)

/-- A take that ends one after `2 ^ 53`, split just before its end. -/
def endSplit : ClipSplit := takeSplit 1 9007199254740992 1 9007199254740992 (by decide)

/-- The windows that are seen in planned segments. -/
def Joined.seenWindows (r : Joined) : List (Option Window) :=
  r.segments.map fun g => (g.winner? .video).bind fun c => (g.window c).toOption

theorem exists_segment_of_seenWindows {plan : Except Fault (Option Joined)} {w : Window}
    (h : plan.map (Option.map Joined.seenWindows) = .ok (some [some w])) :
    ∃ joined g c, plan = .ok (some joined) ∧ joined.segments = [g] ∧
      g.winner? .video = some c ∧ g.window c = .ok w := by
  obtain ⟨joined, hplan, hjoined⟩ := exists_of_map_eq h
  obtain ⟨g, hg, hwindow⟩ := List.map_eq_singleton_iff.1 hjoined
  obtain ⟨c, hc, hw⟩ := Option.bind_eq_some_iff.1 hwindow
  exact ⟨joined, g, c, hplan, hg, hc, toOption_eq_some.1 hw⟩

/-- The source time at which the second part begins is computed from the start of that part, and is
rounded on the way.  And from `2 ^ 53` to the next whole number no time goes by where one of them is
a binary64 value, as the start of the range is, but the start of the second part is not. -/
theorem splitTake_rounded :
    ((∀ c ∈ farSplit.whole, c.start.IsExact ∧ ∀ e, c.stop = .ok e → e.IsExact) ∧
        (Number.int farSplit.time).IsExact ∧
        (filmFrom 3002399751580334).settings.rangeStart.IsWholeBound ∧
        ((filmFrom 3002399751580334).ruleFor none farSplit.clip).Settled ∧
        ∃ joined joined', ((filmFrom 3002399751580334).playing farSplit.whole).planSegments
            none none = .ok (some joined) ∧
          ((filmFrom 3002399751580334).playing farSplit.parts).planSegments none none =
            .ok (some joined') ∧
          ¬List.Forall₂ Segment.SameWindows joined.segments joined'.segments) ∧
      (Number.int endSplit.time).IsExact ∧
        ((filmFrom 9007199254740992).ruleFor none endSplit.clip).Settled ∧
        ((filmFrom 9007199254740992).playing endSplit.whole).compile none none = .ok none ∧
        ∃ r, ((filmFrom 9007199254740992).playing endSplit.parts).compile none none =
            .ok (some r) ∧ r.copied = true := by
  refine ⟨⟨exact_takeSplit (by decide +kernel) (by decide +kernel),
    Number.isExact_int (by decide +kernel),
    Or.inr ⟨3002399751580334, Number.isExact_int (by decide +kernel), rfl⟩,
    settled_takeSplit _, ?_⟩, Number.isExact_int (by decide +kernel), settled_takeSplit _, ?_, ?_⟩
  · have hwhole : (((filmFrom 3002399751580334).playing farSplit.whole).planSegments none none).map
        (Option.map Joined.seenWindows) = .ok (some [some ⟨.float (Binary64.ofInt 9007199254741002),
          .float (Binary64.ofInt 13510798882111488), 3⟩]) := by
      decide +kernel
    have hparts : (((filmFrom 3002399751580334).playing farSplit.parts).planSegments none none).map
        (Option.map Joined.seenWindows) = .ok (some [some ⟨.float (Binary64.ofInt 9007199254741000),
          .float (Binary64.ofInt 13510798882111486), 3⟩]) := by
      decide +kernel
    obtain ⟨joined, g, c, hplan, hg, hc, hw⟩ := exists_segment_of_seenWindows hwhole
    obtain ⟨joined', g', c', hplan', hg', hc', hw'⟩ := exists_segment_of_seenWindows hparts
    refine ⟨joined, joined', hplan, hplan', ?_⟩
    rw [hg, hg', List.forall₂_cons]
    rintro ⟨hsame, -⟩
    obtain ⟨w, w', hw₁, hw₁', hstart, -, -⟩ := hsame .video c c' hc hc'
    obtain rfl := Except.ok.inj (hw.symm.trans hw₁)
    obtain rfl := Except.ok.inj (hw'.symm.trans hw₁')
    exact absurd hstart (by decide +kernel)
  · exact eq_none_of_map_eq (by decide +kernel)
  · exact exists_of_map_eq (f := ExportResult.copied) (by decide +kernel)

end Montage
