import Montage.Proofs.Export.Untouched

/-!
When there is something to export.

A result is made of segments that are kept: they have a length, and the media of their winners are
at hand.  All clips of a run share their media, so whether a segment is kept can be read off any of
its instants.
-/

namespace Montage

namespace GraphContext

variable {g : GraphContext} {segments : List Segment} {inputs : List Media}

theorem keptIds_eq_nil_iff (place : Nat) :
    keptIds (g.keptFrom place segments) = [] ↔
      ∀ s ∈ segments, g.Keeps s → winners s = [] := by
  induction segments generalizing place with
  | nil => simp [keptFrom, keptIds]
  | cons s rest ih =>
      rw [keptFrom_cons, List.forall_mem_cons, ← ih (place + 1)]
      split
      · next hkept =>
          simp only [keptIds, List.flatMap_cons, List.append_eq_nil_iff,
            List.map_eq_nil_iff, hkept, forall_const]
      · next hdropped => simp only [hdropped, false_implies, true_and]

/-- There are no inputs when no segment that is kept has a winner. -/
theorem inputs_eq_nil_iff (h : g.inputs segments = .ok inputs) :
    inputs = [] ↔ ∀ s ∈ segments, g.Keeps s → winners s = [] := by
  have hnone : g.Collects [] [] := ⟨rfl, List.nodup_nil, List.forall_mem_nil _⟩
  have hcollects : g.Collects inputs (keptIds (g.keptFrom 0 segments)) :=
    collects_foldlM 0 hnone h
  rw [← keptIds_eq_nil_iff 0, ← List.map_eq_nil_iff, hcollects.ids_eq]
  cases keptIds (g.keptFrom 0 segments) with
  | nil => simp
  | cons id ids => simp [List.eraseDups_cons]

/-- Of a segment that is looked at for inputs, the duration is known. -/
theorem exists_duration_of_inputs {first : List Media}
    (h : segments.foldlM (fun inputs s => do
      return if ← g.keeps s then g.addInputs inputs (winners s) else inputs) first =
        .ok inputs) : ∀ s ∈ segments, ∃ d, s.duration = .ok d := by
  induction segments generalizing first with
  | nil => exact List.forall_mem_nil _
  | cons s rest ih =>
      simp only [List.foldlM_cons, bind_eq_ok] at h
      obtain ⟨next, ⟨keeps, hkeeps, -⟩, h⟩ := h
      simp only [GraphContext.keeps, bind_eq_ok] at hkeeps
      obtain ⟨d, hd, -⟩ := hkeeps
      exact List.forall_mem_cons.2 ⟨⟨d, hd⟩, ih h⟩

/-- A graph has an input from a kept segment with a winner. -/
theorem plan_eq_some {p : GraphPlan} (h : g.plan segments = .ok (some p)) :
    p.inputs ≠ [] ∧ ∃ s ∈ segments, g.Keeps s ∧ winners s ≠ [] := by
  simp only [GraphContext.plan, bind_eq_ok] at h
  obtain ⟨inputs, hinputs, h⟩ := h
  split at h
  · simp [pure, Except.pure] at h
  · next hne =>
      simp only [bind_eq_ok] at h
      obtain ⟨built, -, h⟩ := h
      split at h
      · simp [pure, Except.pure] at h
      · obtain rfl := Option.some.inj (Except.ok.inj h)
        rw [List.isEmpty_iff] at hne
        refine ⟨hne, ?_⟩
        by_contra hnone
        push Not at hnone
        exact hne ((inputs_eq_nil_iff hinputs).2 hnone)

/-- There is no graph when no kept segment has a winner. -/
theorem plan_eq_none (h : g.plan segments = .ok none) :
    ∀ s ∈ segments, (∃ d, s.duration = .ok d) ∧ (g.Keeps s → winners s = []) := by
  simp only [GraphContext.plan, bind_eq_ok] at h
  obtain ⟨inputs, hinputs, h⟩ := h
  have hempty : inputs = [] := by
    by_contra hne
    rw [if_neg (by simpa using hne)] at h
    simp only [bind_eq_ok] at h
    obtain ⟨built, hbuilt, h⟩ := h
    split at h
    · next hnil =>
        -- nothing built means nothing kept, so nothing to collect either
        have hkept := (segmentChains_spec hbuilt).length_eq
        rw [List.isEmpty_iff.1 hnil, List.length_nil, List.length_eq_zero_iff] at hkept
        refine hne ((inputs_eq_nil_iff hinputs).2 ((keptIds_eq_nil_iff 0).1 ?_))
        rw [hkept]
        rfl
    · simp [pure, Except.pure] at h
  intro s hs
  exact ⟨exists_duration_of_inputs hinputs s hs,
    (inputs_eq_nil_iff hinputs).1 hempty s hs⟩

end GraphContext

/-- All clips of a run have the same media. -/
def SharesMedia (s : Segment) : Prop :=
  ∀ channel, ∀ c ∈ s.run channel, ∀ d ∈ s.run channel, c.mediaId = d.mediaId

section Runs

variable {sources : Sources} {clips : List Clip} {rule : FilterRule}
  {segments : List Segment} {r : Joined} {g : Segment} {t : Instant}

/-- A joint adds to a run only what has the same media. -/
theorem SharesMedia.joined {s u : Segment} (hclips : Coherent clips)
    (hs : SharesMedia s) (hu : SharesMedia u) (hsin : s.Within clips)
    (huin : u.Within clips) (hj : joint rule s u = some .joined) :
    SharesMedia (s.joined u) := by
  have hacross : ∀ channel, ∀ c ∈ s.run channel, ∀ d ∈ u.run channel,
      c.mediaId = d.mediaId := by
    intro channel c hc d hd
    obtain ⟨hnil, -⟩ | ⟨p, n, hp, hn, hcont⟩ := (joint_eq_joined hj).2 channel
    · rw [Segment.tail?, List.getLast?_eq_none_iff] at hnil
      rw [hnil] at hc
      exact absurd hc List.not_mem_nil
    · have hpmem := List.mem_of_getLast? hp
      have hnmem := List.mem_of_head? hn
      have hmedia : p.mediaId = n.mediaId := by
        rcases hcont with hid | ⟨hseam, -⟩
        · rw [hclips p (hsin channel p hpmem) n (huin channel n hnmem) hid]
        · exact (seamless_cases hseam).1
      calc c.mediaId = p.mediaId := hs channel c hc p hpmem
        _ = n.mediaId := hmedia
        _ = d.mediaId := hu channel n hnmem d hd
  intro channel c hc d hd
  rw [Segment.run_joined] at hc hd
  rcases mem_of_mem_extendRun hc with hc | hc <;>
    rcases mem_of_mem_extendRun hd with hd | hd
  · exact hs channel c hc d hd
  · exact hacross channel c hc d hd
  · exact (hacross channel d hd c hc).symm
  · exact hu channel c hc d hd

theorem Shows.sharesMedia {s : Segment} (h : Shows sources clips s) :
    SharesMedia s := by
  intro channel c hc d hd
  obtain ⟨w, hw⟩ := h.single channel
  rw [hw, Option.mem_toList] at hc hd
  rw [Option.some.inj (hc.symm.trans hd)]

theorem sharesMedia_of_joinAll (hclips : Coherent clips)
    (hshows : ∀ s ∈ segments, Shows sources clips s)
    (h : joinAll rule segments = some r) : ∀ g ∈ r.segments, SharesMedia g := by
  have hboth : ∀ g ∈ r.segments, SharesMedia g ∧ g.Within clips := by
    refine joinAll_forall (M := fun _ _ => True) ?_ ?_ hshows ?_ h
    · intro s hs
      exact ⟨hs.sharesMedia, hs.carries.within⟩
    · intro s u hs hu _ hj
      exact ⟨hs.1.joined hclips hu.sharesMedia hs.2 hu.carries.within hj,
        hs.2.joined hu.carries.within⟩
    · exact List.isChain_iff_forall_rel_of_append_cons_cons.2 fun _ _ _ _ _ => trivial
  exact fun g hg => (hboth g hg).1

/-- At an instant there is something to play: some channel has a winner, and the
media of all winners are in the catalogue and online. -/
structure HasContent (sources : Sources) (clips : List Clip) (t : Instant) : Prop where
  winner : ∃ channel c, IsWinner (some c) (candidates sources clips t channel)
  online : ∀ channel c, IsWinner (some c) (candidates sources clips t channel) →
    ∃ m, sources.mediaOf? c = some m ∧ m.offline = false

/-- At an instant of a joined segment, the winner is in the run and has the media
of the first clip of it. -/
theorem Carries.mediaId_eq (h : Carries sources clips g) (hshares : SharesMedia g)
    (ht : g.holds t = true) {channel : Channel} {w first : Clip}
    (hw : IsWinner (some w) (candidates sources clips t channel))
    (hfirst : g.winner? channel = some first) : first.mediaId = w.mediaId :=
  hshares channel first (List.mem_of_head? hfirst) w
    (h.winner_mem t ht channel w (isWinner_iff.1 hw))

/-- A channel has a winner at an instant of a joined segment just when the run has
a first clip. -/
theorem Carries.exists_winner_iff (h : Carries sources clips g)
    (ht : g.holds t = true) (channel : Channel) :
    (∃ c, g.winner? channel = some c) ↔
      ∃ c, IsWinner (some c) (candidates sources clips t channel) := by
  simp only [Segment.winner?, ← Option.isSome_iff_exists, List.isSome_head?,
    isWinner_iff, ne_eq, h.nil_iff t ht channel]
  rw [Option.isSome_iff_ne_none, ne_eq, topmost?_eq_none_iff]

/-- Whether there is something to play can be read off the first clips of a joined
segment, at any of its instants. -/
theorem Carries.hasContent_iff (h : Carries sources clips g)
    (hshares : SharesMedia g) (ht : g.holds t = true) :
    HasContent sources clips t ↔ GraphContext.winners g ≠ [] ∧
      ∀ channel, ∀ c ∈ g.winner? channel,
        ∃ m, sources.mediaOf? c = some m ∧ m.offline = false := by
  have hsame : ∀ {c d : Clip}, c.mediaId = d.mediaId →
      sources.mediaOf? c = sources.mediaOf? d := by
    intro c d hcd
    rw [Sources.mediaOf?, Sources.mediaOf?, hcd]
  have hwinners : GraphContext.winners g ≠ [] ↔
      ∃ channel c, g.winner? channel = some c := by
    constructor
    · intro hne
      obtain ⟨c, hc⟩ := List.exists_mem_of_ne_nil _ hne
      obtain ⟨channel, hc⟩ := GraphContext.mem_winners.1 hc
      exact ⟨channel, c, hc⟩
    · rintro ⟨channel, c, hc⟩
      exact List.ne_nil_of_mem (GraphContext.mem_winners.2 ⟨channel, hc⟩)
  rw [hwinners]
  constructor
  · rintro ⟨⟨channel, hwinner⟩, honline⟩
    refine ⟨⟨channel, (h.exists_winner_iff ht channel).2 hwinner⟩, ?_⟩
    intro channel first hfirst
    obtain ⟨w, hw⟩ := (h.exists_winner_iff ht channel).1 ⟨first, hfirst⟩
    obtain ⟨m, hm, hon⟩ := honline channel w hw
    exact ⟨m, (hsame (h.mediaId_eq hshares ht hw hfirst)).trans hm, hon⟩
  · rintro ⟨⟨channel, hfirst⟩, honline⟩
    refine ⟨⟨channel, (h.exists_winner_iff ht channel).1 hfirst⟩, ?_⟩
    intro channel w hw
    obtain ⟨first, hfirst⟩ := (h.exists_winner_iff ht channel).2 ⟨w, hw⟩
    obtain ⟨m, hm, hon⟩ := honline channel first hfirst
    exact ⟨m, (hsame (h.mediaId_eq hshares ht hw hfirst)).symm.trans hm, hon⟩

end Runs

namespace Snapshot

variable {s : Snapshot} {infos : Option (List (String × MediaInfo))}
  {rule : Option FilterRule}

/-- The planned segment at an instant is no longer than zero, as its length is
computed. -/
def LosesLength (s : Snapshot) (infos : Option (List (String × MediaInfo)))
    (rule : Option FilterRule) (t : Instant) : Prop :=
  ∃ joined g d, s.planSegments infos rule = .ok (some joined) ∧
    g ∈ joined.segments ∧ g.holds t = true ∧ g.duration = .ok d ∧ d.le 0 = true

/-- There is a plan where instants are exported. -/
theorem Exports.planSegments_ne_none {t : Instant} (ht : s.Exports t) :
    s.planSegments infos rule ≠ .ok none := by
  intro h
  obtain ⟨range, hrange, -⟩ := ht.ranged
  rw [range?] at hrange
  simp only [planSegments, hrange, bind_eq_ok] at h
  obtain ⟨segments, -, found, hfound, h⟩ := h
  obtain rfl := Except.ok.inj hfound
  simp only [bind_eq_ok] at h
  obtain ⟨joined, -, h⟩ := h
  simp [pure, Except.pure] at h

section Planned

variable {joined : Joined} {range : ExportRange} {segments : List Segment}
  {a b : Place} {t : Instant} {g : Segment} {k : GraphContext}

/-- At an instant of a planned segment there is something to play when there is
for the graph that segment would be part of. -/
theorem Planned.hasContent_iff (h : s.Planned infos rule joined range segments a b)
    (hclips : Coherent s.clips) (hk : k.sources = s.sources infos)
    (hg : g ∈ joined.segments) (ht : g.holds t = true) :
    HasContent (s.sources infos) s.clips t ↔ GraphContext.winners g ≠ [] ∧
      ∀ channel, ∀ c ∈ g.winner? channel,
        ∃ m, k.sources.mediaOf? c = some m ∧ m.offline = false := by
  rw [hk]
  exact (joinAll_carries hclips h.cut.tiles h.cut.shows h.joins g hg).hasContent_iff
    (sharesMedia_of_joinAll hclips h.cut.shows h.joins g hg) ht

/-- Of a planned segment that is kept and has winners, every instant is exported
and has content. -/
theorem Planned.exists_content (h : s.Planned infos rule joined range segments a b)
    (hclips : Coherent s.clips) (hk : k.sources = s.sources infos)
    (hg : g ∈ joined.segments) (hkeeps : k.Keeps g)
    (hwinners : GraphContext.winners g ≠ []) :
    ∃ t, s.Exports t ∧ HasContent (s.sources infos) s.clips t ∧
      g.holds t = true := by
  obtain ⟨p, e, hp, he, hap, hpe, heb⟩ :=
    (joinAll_tiles h.cut.tiles h.joins).places_of_mem hg
  obtain ⟨t, ht0, hpt, hte⟩ := exists_instant (h.cut.nonneg.trans hap) hpe
  have hholds : g.holds t = true := (Segment.holds_iff hp he).2 ⟨hpt, hte⟩
  have hcontent : HasContent (s.sources infos) s.clips t :=
    (h.hasContent_iff hclips hk hg hholds).2 ⟨hwinners, hkeeps.online⟩
  obtain ⟨channel, c, hc⟩ := hcontent.winner
  have hmem := IsTopmost.mem hc
  exact ⟨t, h.exports_of_isOn t ht0 (hap.trans hpt) (hte.trans_le heb)
    ⟨c, candidates_subset hmem, isOn_of_mem_candidates hmem⟩, hcontent, hholds⟩

/-- Each exported instant lies in one planned segment. -/
theorem Planned.exists_holding (h : s.Planned infos rule joined range segments a b)
    (ht : s.Exports t) : ∃ g ∈ joined.segments, g.holds t = true ∧
      ∀ u ∈ joined.segments, u.holds t = true → u = g := by
  obtain ⟨hat, htb⟩ := h.exported t ht
  obtain ⟨g, hg, hholds, hfilter⟩ :=
    (joinAll_tiles h.cut.tiles h.joins).exists_filter_holds hat htb
  refine ⟨g, hg, hholds, ?_⟩
  intro u hu huholds
  exact List.mem_singleton.1 (hfilter ▸ List.mem_filter.2 ⟨hu, huholds⟩)

/-- At an instant of a segment that lasts no length is lost. -/
theorem Planned.not_losesLength (h : s.Planned infos rule joined range segments a b)
    (hplan : s.planSegments infos rule = .ok (some joined)) (ht : s.Exports t)
    (hg : g ∈ joined.segments) (hholds : g.holds t = true)
    (hlasts : ∃ d, g.duration = .ok d ∧ d.le 0 = false) : ¬s.LosesLength infos rule t := by
  rintro ⟨joined', u, d, hplan', hu, huholds, hd, hlost⟩
  obtain rfl : joined = joined' :=
    Option.some.inj (Except.ok.inj (hplan.symm.trans hplan'))
  -- only this segment holds the instant
  obtain ⟨v, -, -, hunique⟩ := h.exists_holding ht
  obtain rfl : u = g := (hunique u hu huholds).trans (hunique g hg hholds).symm
  obtain ⟨d', hd', hlasts⟩ := hlasts
  obtain rfl : d = d' := Except.ok.inj (hd.symm.trans hd')
  exact absurd hlost (Bool.not_eq_true _ ▸ hlasts)

/-- Where the graph has no inputs, what could be played loses its length. -/
theorem Planned.losesLength (h : s.Planned infos rule joined range segments a b)
    (hclips : Coherent s.clips)
    (hplan : s.planSegments infos rule = .ok (some joined))
    (hk : k.sources = s.sources infos) (hnone : k.plan joined.segments = .ok none)
    (ht : s.Exports t) (hcontent : HasContent (s.sources infos) s.clips t) :
    s.LosesLength infos rule t := by
  obtain ⟨g, hg, hholds, -⟩ := h.exists_holding ht
  obtain ⟨hwinners, honline⟩ := (h.hasContent_iff hclips hk hg hholds).1 hcontent
  obtain ⟨⟨d, hd⟩, hdropped⟩ := GraphContext.plan_eq_none hnone g hg
  refine ⟨joined, g, d, hplan, hg, hholds, hd, ?_⟩
  by_contra hlasts
  rw [Bool.not_eq_true] at hlasts
  exact hwinners (hdropped ⟨⟨d, hd, hlasts⟩, honline⟩)

/-- What is made has inputs, and they are of segments that are kept. -/
theorem Made.exists_kept {r : ExportResult}
    (h : s.Made infos rule segments r)
    (hclips : Coherent (segments.flatMap Segment.clips)) :
    r.inputs ≠ [] ∧ ∃ k : GraphContext, k.sources = s.sources infos ∧
      ∃ g ∈ segments, k.Keeps g ∧ GraphContext.winners g ≠ [] := by
  cases h with
  | copied plan hfound _ hinputs _ =>
      -- a graph of what is copied would keep every segment too
      let k : GraphContext := ⟨s.sources infos, s.settings, s.ruleFor rule, 0, 0⟩
      have hplan := (copyPlan_cases hfound).2
      have huntouched : k.AllUntouched plan.media segments plan.windows :=
        GraphContext.allUntouched_of_copyPlan hplan hclips
      have hne := GraphContext.segments_ne_nil_of_copyPlan (g := k) hplan
      obtain ⟨g, hg⟩ := List.exists_mem_of_ne_nil _ hne
      have hseen := ((CopyContext.plan_cases hplan).choose_spec.2 g hg).1.seen
      refine ⟨by rw [hinputs]; simp, k, rfl, g, hg, huntouched.keeps g hg, ?_⟩
      obtain ⟨c, hc⟩ : ∃ c, g.winner? .video = some c :=
        Option.isSome_iff_exists.1 (List.isSome_head?.2 hseen)
      exact List.ne_nil_of_mem (GraphContext.mem_winners.2 ⟨.video, hc⟩)
  | rendered k graph _ hk hfound _ hinputs _ =>
      obtain ⟨hne, g, hg, hkeeps, hwinners⟩ := GraphContext.plan_eq_some hfound
      exact ⟨hinputs ▸ hne, k, hk, g, hg, hkeeps, hwinners⟩

end Planned

/-- Where nothing is made, what could be played at an exported instant loses its
length. -/
theorem losesLength_of_compile_eq_none (hids : (s.clips.map Clip.id).Nodup)
    (htimed : ∀ c ∈ s.clips, c.WellTimed) (h : s.compile infos rule = .ok none)
    {t : Instant} (ht : s.Exports t)
    (hcontent : HasContent (s.sources infos) s.clips t) :
    s.LosesLength infos rule t := by
  obtain ⟨-, hnil | hnone⟩ | ⟨joined, hplan, hcases⟩ := compile_made h
  · obtain ⟨channel, c, hc⟩ := hcontent.winner
    have hmem := candidates_subset (IsTopmost.mem hc)
    rw [hnil] at hmem
    exact absurd hmem List.not_mem_nil
  · exact absurd hnone ht.planSegments_ne_none
  · obtain ⟨range, segments, a, b, hplanned⟩ := exists_planned hids htimed hplan
    rcases hcases with ⟨-, hnil | ⟨k, hk, hnone⟩⟩ | ⟨r, hr, -⟩
    · obtain ⟨g, hg, -⟩ := hplanned.exists_holding ht
      rw [hnil] at hg
      exact absurd hg List.not_mem_nil
    · exact hplanned.losesLength (coherent_of_nodup hids) hplan hk hnone ht hcontent
    · exact absurd hr.symm (Option.some_ne_none r)

/-- What is made is made of a plan. -/
theorem exists_made (hids : (s.clips.map Clip.id).Nodup)
    (htimed : ∀ c ∈ s.clips, c.WellTimed) {r : ExportResult}
    (h : s.compile infos rule = .ok (some r)) :
    ∃ joined range segments a b, s.planSegments infos rule = .ok (some joined) ∧
      s.Planned infos rule joined range segments a b ∧
      s.Made infos rule joined.segments r ∧
      Coherent (joined.segments.flatMap Segment.clips) := by
  have hclips := coherent_of_nodup hids
  obtain ⟨ho, -⟩ | ⟨joined, hplan, ⟨ho, -⟩ | ⟨r', ho, -, -, hmade⟩⟩ := compile_made h
  · exact absurd ho (Option.some_ne_none r)
  · exact absurd ho (Option.some_ne_none r)
  · obtain rfl := Option.some.inj ho
    obtain ⟨range, segments, a, b, hplanned⟩ := exists_planned hids htimed hplan
    have hcarries := joinAll_carries hclips hplanned.cut.tiles hplanned.cut.shows
      hplanned.joins
    have hcoherent : Coherent (joined.segments.flatMap Segment.clips) :=
      hclips.mono (Segment.subset_of_within fun g hg => (hcarries g hg).within)
    exact ⟨joined, range, segments, a, b, hplan, hplanned, hmade, hcoherent⟩

/-- What is made has inputs, and at some exported instant there is something to
play that keeps its length. -/
theorem exists_content_of_compile_eq_some (hids : (s.clips.map Clip.id).Nodup)
    (htimed : ∀ c ∈ s.clips, c.WellTimed) {r : ExportResult}
    (h : s.compile infos rule = .ok (some r)) :
    r.inputs ≠ [] ∧ ∃ t, s.Exports t ∧ HasContent (s.sources infos) s.clips t ∧
      ¬s.LosesLength infos rule t := by
  obtain ⟨joined, range, segments, a, b, hplan, hplanned, hmade, hcoherent⟩ :=
    exists_made hids htimed h
  obtain ⟨hinputs, k, hk, g, hg, hkeeps, hwinners⟩ := hmade.exists_kept hcoherent
  obtain ⟨t, ht, hcontent, hholds⟩ :=
    hplanned.exists_content (coherent_of_nodup hids) hk hg hkeeps hwinners
  exact ⟨hinputs, t, ht, hcontent,
    hplanned.not_losesLength hplan ht hg hholds hkeeps.lasts⟩

/-- No length is lost where binary64 holds the times of the clips exactly. -/
theorem not_losesLength_of_exact (hids : (s.clips.map Clip.id).Nodup)
    (htimed : ∀ c ∈ s.clips, c.WellTimed)
    (hexact : ∀ c ∈ s.clips, c.start.IsExact ∧ ∀ e, c.stop = .ok e → e.IsExact)
    (t : Instant) : ¬s.LosesLength infos rule t := by
  rintro ⟨joined, g, d, hplan, hg, -, hd, hlost⟩
  obtain ⟨range, segments, a, b, hplanned⟩ := exists_planned hids htimed hplan
  obtain ⟨d', hd', hlasts⟩ := lasts_of_exact hplanned hexact g hg
  obtain rfl : d = d' := Except.ok.inj (hd.symm.trans hd')
  exact absurd hlost (Bool.not_eq_true _ ▸ hlasts)

/-- Nothing is made when at no exported instant there is something to play that
keeps its length, and only then.  Where binary64 holds the times of the clips
exactly no length is lost.  What is made has inputs. -/
theorem compile_eq_none_iff (hids : (s.clips.map Clip.id).Nodup)
    (htimed : ∀ c ∈ s.clips, c.WellTimed) {o : Option ExportResult}
    (h : s.compile infos rule = .ok o) :
    (o = none ↔ ¬∃ t, s.Exports t ∧ HasContent (s.sources infos) s.clips t ∧
        ¬s.LosesLength infos rule t) ∧
      ((∀ c ∈ s.clips, c.start.IsExact ∧ ∀ e, c.stop = .ok e → e.IsExact) →
        (o = none ↔
          ¬∃ t, s.Exports t ∧ HasContent (s.sources infos) s.clips t)) ∧
      ∀ r, o = some r → r.inputs ≠ [] := by
  cases o with
  | none =>
      have hlost : ∀ t, s.Exports t → HasContent (s.sources infos) s.clips t →
          s.LosesLength infos rule t :=
        fun t ht hcontent => losesLength_of_compile_eq_none hids htimed h ht hcontent
      refine ⟨iff_of_true rfl ?_, ?_, ?_⟩
      · rintro ⟨t, ht, hcontent, hkept⟩
        exact hkept (hlost t ht hcontent)
      · intro hexact
        refine iff_of_true rfl ?_
        rintro ⟨t, ht, hcontent⟩
        exact not_losesLength_of_exact hids htimed hexact t (hlost t ht hcontent)
      · intro r hr
        exact absurd hr.symm (Option.some_ne_none r)
  | some r =>
      obtain ⟨hinputs, t, ht, hcontent, hkept⟩ :=
        exists_content_of_compile_eq_some hids htimed h
      refine ⟨iff_of_false (Option.some_ne_none r) ?_, ?_, ?_⟩
      · exact not_not_intro ⟨t, ht, hcontent, hkept⟩
      · intro _
        exact iff_of_false (Option.some_ne_none r) (not_not_intro ⟨t, ht, hcontent⟩)
      · intro r' hr
        exact Option.some.inj hr ▸ hinputs

end Snapshot

theorem compile_halves :
    ((filmOf halves.1 halves.2).clips.map Clip.id).Nodup ∧
      (∀ c ∈ (filmOf halves.1 halves.2).clips, c.WellTimed) ∧
      ∃ r, (filmOf halves.1 halves.2).compile none none = .ok (some r) ∧
        r.inputs ≠ [] ∧ ∃ t, (filmOf halves.1 halves.2).Exports t ∧
          HasContent ((filmOf halves.1 halves.2).sources none)
            (filmOf halves.1 halves.2).clips t := by
  have hids : ((filmOf halves.1 halves.2).clips.map Clip.id).Nodup := by decide
  have htimed : ∀ c ∈ (filmOf halves.1 halves.2).clips, c.WellTimed :=
    List.forall_mem_cons.2 ⟨halves_whole.1.wellTimed,
      List.forall_mem_singleton.2 halves_whole.2.wellTimed⟩
  have hcopied : ((filmOf halves.1 halves.2).compile none none).map
      (·.map ExportResult.copied) = .ok (some true) := by
    decide +kernel
  obtain ⟨r, h, -⟩ := exists_of_map_eq hcopied
  obtain ⟨-, hnone, hinputs⟩ := Snapshot.compile_eq_none_iff hids htimed h
  refine ⟨hids, htimed, r, h, hinputs r rfl, ?_⟩
  by_contra hnothing
  exact Option.some_ne_none r ((hnone halves_exact).2 hnothing)

/-- A clip up to a millisecond that binary64 cannot tell from the one before. -/
def longTakeClip : Clip := { halves.1 with duration := 9007199254740993 }

/-- One long clip, of which the last millisecond is exported. -/
def longTake : Snapshot :=
  { filmOf halves.1 halves.2 with
    clips := [longTakeClip]
    settings := { rangeStart := .number 9007199254740992, deClick := .bool false } }

/-- Nothing is made of it, since its length is rounded to zero. -/
theorem compile_longTake :
    (longTake.clips.map Clip.id).Nodup ∧ (∀ c ∈ longTake.clips, c.WellTimed) ∧
      longTake.Exports 9007199254740992 ∧
      HasContent (longTake.sources none) longTake.clips 9007199254740992 ∧
      longTake.compile none none = .ok none := by
  have htimed : ∀ c ∈ longTake.clips, c.WellTimed := by
    refine List.forall_mem_singleton.2 ⟨?_, ?_⟩ <;> decide +kernel
  have hon : ∀ c ∈ longTake.clips, c.isOn 9007199254740992 = true := by
    decide +kernel
  have hmedia : ∀ c ∈ longTake.clips, (longTake.sources none).mediaOf? c =
      longTake.media.head? := by
    decide +kernel
  have hmade : (longTake.compile none none).map Option.isSome = .ok false := by
    decide +kernel
  have hended : timelineDuration longTake.clips = .ok (.int 9007199254740993) := by
    decide +kernel
  have hranged : longTake.range?.map (Option.map fun r => r.holds 9007199254740992) =
      .ok (some true) := by
    decide +kernel
  refine ⟨by decide, htimed, ⟨by norm_num, ⟨_, hended, ?_⟩, ?_⟩, ⟨?_, ?_⟩, ?_⟩
  · exact Number.isAfter_int.2 (by norm_num)
  · exact exists_of_map_eq hranged
  · have haudio : candidates (longTake.sources none) longTake.clips
        9007199254740992 .audio = longTake.clips := List.filter_eq_self.2 hon
    refine ⟨.audio, longTakeClip, ?_⟩
    rw [haudio]
    exact isWinner_singleton longTakeClip
  · intro channel c hc
    rw [hmedia c (candidates_subset (IsTopmost.mem hc))]
    exact ⟨_, rfl, rfl⟩
  · exact eq_none_of_map_eq hmade

end Montage
