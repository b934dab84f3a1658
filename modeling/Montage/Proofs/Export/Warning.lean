import Montage.Proofs.Export.Content

/-!
When an export warns about its sound.

The warning says that something heard is only supposed to have sound.  A copy plan looks this up
once, for its one source; a graph looks at each segment that it keeps.  Either way there is a
segment that is kept, and an instant of it at which the warning is due.
-/

namespace Montage

/-- At an instant the media of all winners are in the catalogue and online, and of the media heard
it is not known whether there is sound. -/
structure GuessesSound (sources : Sources) (clips : List Clip) (t : Instant) : Prop where
  online : ∀ channel c, IsWinner (some c) (candidates sources clips t channel) →
    ∃ m, sources.mediaOf? c = some m ∧ m.offline = false
  heard : ∃ c m, IsWinner (some c) (candidates sources clips t .audio) ∧
    sources.mediaOf? c = some m ∧ (sources.infoOf m).audio = .unknown

theorem GuessesSound.hasContent {sources : Sources} {clips : List Clip} {t : Instant}
    (h : GuessesSound sources clips t) : HasContent sources clips t := by
  obtain ⟨c, -, hc, -⟩ := h.heard
  exact ⟨⟨.audio, c, hc⟩, h.online⟩

theorem Media.audioInferred_iff {info : MediaInfo} :
    Media.audioInferred info = true ↔ info.audio = .unknown := by
  simp [Media.audioInferred, Presence.isKnown]

namespace GraphContext

variable {g : GraphContext} {s : Segment} {segments : List Segment}

theorem audioGuessed_iff : g.audioGuessed s = true ↔ ∃ c m, s.winner? .audio = some c ∧
    g.mediaFor? c = some m ∧ (g.sources.infoOf m).audio = .unknown := by
  rw [audioGuessed]
  constructor
  · intro h
    split at h
    · next m hm =>
        obtain ⟨c, hc, hcm⟩ := Option.bind_eq_some_iff.1 hm
        exact ⟨c, m, hc, hcm, Media.audioInferred_iff.1 h⟩
    · exact absurd h Bool.false_ne_true
  · rintro ⟨c, m, hc, hm, hunknown⟩
    rw [hc, Option.bind_some, hm]
    exact Media.audioInferred_iff.2 hunknown

theorem exists_mem_keptFrom {P : Segment → Prop} (place : Nat) :
    (∃ k ∈ g.keptFrom place segments, P k.1) ↔ ∃ s ∈ segments, g.Keeps s ∧ P s := by
  induction segments generalizing place with
  | nil => simp [keptFrom]
  | cons s rest ih =>
      rw [keptFrom_cons]
      by_cases hs : g.Keeps s
      · simp [hs, ih]
      · simp [hs, ih]

theorem any_audioGuessed_of_built {kept : List (Segment × Nat)}
    {built : List (Nat × Segment × Chain × Chain)}
    (h : List.Forall₂ (fun k b => b.2.1 = k.1) kept built) :
    (built.any fun b => g.audioGuessed b.2.1) = kept.any fun k => g.audioGuessed k.1 := by
  induction h with
  | nil => rfl
  | cons hkb _ ih => rw [List.any_cons, List.any_cons, hkb, ih]

/-- A graph warns when the sound of a segment that it keeps is guessed. -/
theorem warning_iff {p : GraphPlan} (h : g.plan segments = .ok (some p)) :
    p.warning = true ↔ ∃ s ∈ segments, g.Keeps s ∧ g.audioGuessed s = true := by
  obtain ⟨built, -, hbuilt, -, hwarning⟩ := plan_cases h
  have hsegments := (segmentChains_spec hbuilt).imp fun k b hkb => hkb.1.2
  rw [hwarning, any_audioGuessed_of_built hsegments, List.any_eq_true]
  exact exists_mem_keptFrom (P := fun s => g.audioGuessed s = true) 0

end GraphContext

/-- At any instant of a joined segment the sound is guessed, with all media at hand, when that of
the segment is. -/
theorem Carries.guessesSound_iff {clips : List Clip} {g : Segment} {t : Instant}
    {k : GraphContext} (h : Carries k.sources clips g) (hshares : SharesMedia g)
    (ht : g.holds t = true) : GuessesSound k.sources clips t ↔
      (∀ channel, ∀ c ∈ g.winner? channel,
        ∃ m, k.sources.mediaOf? c = some m ∧ m.offline = false) ∧ k.audioGuessed g = true := by
  have hmedia : ∀ {w first : Clip},
      IsWinner (some w) (candidates k.sources clips t .audio) → g.winner? .audio = some first →
        k.sources.mediaOf? first = k.sources.mediaOf? w := by
    intro w first hw hfirst
    rw [Sources.mediaOf?, Sources.mediaOf?, h.mediaId_eq hshares ht hw hfirst]
  rw [GraphContext.audioGuessed_iff]
  constructor
  · intro hguesses
    have honline := ((h.hasContent_iff hshares ht).1 hguesses.hasContent).2
    obtain ⟨w, m, hw, hm, hunknown⟩ := hguesses.heard
    obtain ⟨first, hfirst⟩ := (h.exists_winner_iff ht .audio).2 ⟨w, hw⟩
    have hm' : k.sources.mediaOf? first = some m := (hmedia hw hfirst).trans hm
    obtain ⟨m', hm'', hon⟩ := honline .audio first hfirst
    obtain rfl : m = m' := Option.some.inj (hm'.symm.trans hm'')
    exact ⟨honline, first, m, hfirst, GraphContext.mediaFor?_eq_some.2 ⟨hm', hon⟩, hunknown⟩
  · rintro ⟨honline, first, m, hfirst, hm, hunknown⟩
    obtain ⟨w, hw⟩ := (h.exists_winner_iff ht .audio).1 ⟨first, hfirst⟩
    have hwinners : GraphContext.winners g ≠ [] :=
      List.ne_nil_of_mem (GraphContext.mem_winners.2 ⟨.audio, hfirst⟩)
    have hcontent := (h.hasContent_iff hshares ht).2 ⟨hwinners, honline⟩
    have hm' := (GraphContext.mediaFor?_eq_some.1 hm).1
    exact ⟨hcontent.online, w, m, hw, (hmedia hw hfirst).symm.trans hm', hunknown⟩

namespace Snapshot

variable {s : Snapshot} {infos : Option (List (String × MediaInfo))} {rule : Option FilterRule}
  {r : ExportResult}

/-- However a result is made, it warns when the sound of a segment that lasts and has its media at
hand is guessed. -/
theorem Made.warning_iff {segments : List Segment} (h : s.Made infos rule segments r)
    (hclips : Coherent (segments.flatMap Segment.clips)) :
    ∃ k : GraphContext, k.sources = s.sources infos ∧
      (∀ g ∈ segments, ∃ d, g.duration = .ok d) ∧
      (r.warning = true ↔ ∃ g ∈ segments, k.Keeps g ∧ k.audioGuessed g = true) := by
  cases h with
  | copied plan hfound _ _ hwarning =>
      -- a graph of what is copied would keep every segment
      let k : GraphContext := ⟨s.sources infos, s.settings, s.ruleFor rule, 0, 0⟩
      have hplan := (copyPlan_cases hfound).2
      have huntouched : k.AllUntouched plan.media segments plan.windows :=
        GraphContext.allUntouched_of_copyPlan hplan hclips
      have hguessed := huntouched.any_audioGuessed
        (GraphContext.segments_ne_nil_of_copyPlan (g := k) hplan)
      have hplanned := (CopyContext.plan_eq_some hplan).2.2
      refine ⟨k, rfl, ?_, ?_⟩
      · intro g hg
        obtain ⟨d, hd, -⟩ := (huntouched.keeps g hg).lasts
        exact ⟨d, hd⟩
      · rw [hwarning, hplanned, ← show k.sources = s.sources infos from rfl, ← hguessed,
          List.any_eq_true]
        constructor
        · rintro ⟨g, hg, hany⟩
          exact ⟨g, hg, huntouched.keeps g hg, hany⟩
        · rintro ⟨g, hg, -, hany⟩
          exact ⟨g, hg, hany⟩
  | rendered k graph _ hk hfound _ _ hwarning =>
      obtain ⟨-, hinputs, -⟩ := GraphContext.plan_cases hfound
      refine ⟨k, hk, GraphContext.exists_duration_of_inputs hinputs, ?_⟩
      rw [hwarning]
      exact GraphContext.warning_iff hfound

/-- A result warns when at some exported instant the sound is guessed and no length is lost, and
only then.  Where binary64 holds the times of the clips exactly no length is lost. -/
theorem warning_iff_guessesSound (hids : (s.clips.map Clip.id).Nodup)
    (htimed : ∀ c ∈ s.clips, c.WellTimed) (h : s.compile infos rule = .ok (some r)) :
    (r.warning = true ↔ ∃ t, s.Exports t ∧ GuessesSound (s.sources infos) s.clips t ∧
        ¬s.LosesLength infos rule t) ∧
      ((∀ c ∈ s.clips, c.start.IsExact ∧ ∀ e, c.stop = .ok e → e.IsExact) →
        (r.warning = true ↔
          ∃ t, s.Exports t ∧ GuessesSound (s.sources infos) s.clips t)) := by
  have hclips := coherent_of_nodup hids
  obtain ⟨joined, range, segments, a, b, hplan, hplanned, hmade, hcoherent⟩ :=
    exists_made hids htimed h
  obtain ⟨k, hk, hdurations, hwarns⟩ := hmade.warning_iff hcoherent
  have hguesses : ∀ g ∈ joined.segments, ∀ t, g.holds t = true →
      (GuessesSound (s.sources infos) s.clips t ↔
        (∀ channel, ∀ c ∈ g.winner? channel,
          ∃ m, k.sources.mediaOf? c = some m ∧ m.offline = false) ∧
        k.audioGuessed g = true) := by
    intro g hg t ht
    have hcarries := joinAll_carries hclips hplanned.cut.tiles hplanned.cut.shows
      hplanned.joins g hg
    have hshares := sharesMedia_of_joinAll hclips hplanned.cut.shows hplanned.joins g hg
    rw [← hk] at hcarries ⊢
    exact hcarries.guessesSound_iff hshares ht
  have hboth : r.warning = true ↔ ∃ t, s.Exports t ∧
      GuessesSound (s.sources infos) s.clips t ∧ ¬s.LosesLength infos rule t := by
    rw [hwarns]
    constructor
    · rintro ⟨g, hg, hkeeps, hguessed⟩
      obtain ⟨c, m, hc, -⟩ := GraphContext.audioGuessed_iff.1 hguessed
      have hwinners : GraphContext.winners g ≠ [] :=
        List.ne_nil_of_mem (GraphContext.mem_winners.2 ⟨.audio, hc⟩)
      obtain ⟨t, ht, -, hholds⟩ := hplanned.exists_content hclips hk hg hkeeps hwinners
      exact ⟨t, ht, (hguesses g hg t hholds).2 ⟨hkeeps.online, hguessed⟩,
        hplanned.not_losesLength hplan ht hg hholds hkeeps.lasts⟩
    · rintro ⟨t, ht, hguess, hkept⟩
      obtain ⟨g, hg, hholds, -⟩ := hplanned.exists_holding ht
      obtain ⟨honline, hguessed⟩ := (hguesses g hg t hholds).1 hguess
      obtain ⟨d, hd⟩ := hdurations g hg
      have hlasts : d.le 0 = false := by
        by_contra hlost
        rw [Bool.not_eq_false] at hlost
        exact hkept ⟨joined, g, d, hplan, hg, hholds, hd, hlost⟩
      exact ⟨g, hg, ⟨⟨d, hd, hlasts⟩, honline⟩, hguessed⟩
  refine ⟨hboth, ?_⟩
  intro hexact
  simp only [hboth, not_losesLength_of_exact hids htimed hexact, not_false_eq_true, and_true]

end Snapshot

theorem warning_of_halves :
    ((filmOf halves.1 halves.2).clips.map Clip.id).Nodup ∧
      (∀ c ∈ (filmOf halves.1 halves.2).clips, c.WellTimed) ∧
      ∃ r, (filmOf halves.1 halves.2).compile none none = .ok (some r) ∧ r.warning = true ∧
        ∃ t, (filmOf halves.1 halves.2).Exports t ∧
          GuessesSound ((filmOf halves.1 halves.2).sources none)
            (filmOf halves.1 halves.2).clips t := by
  have hids : ((filmOf halves.1 halves.2).clips.map Clip.id).Nodup := by decide
  have htimed : ∀ c ∈ (filmOf halves.1 halves.2).clips, c.WellTimed :=
    List.forall_mem_cons.2 ⟨halves_whole.1.wellTimed,
      List.forall_mem_singleton.2 halves_whole.2.wellTimed⟩
  have hwarned : ((filmOf halves.1 halves.2).compile none none).map
      (·.map ExportResult.warning) = .ok (some true) := by
    decide +kernel
  obtain ⟨r, h, hr⟩ := exists_of_map_eq hwarned
  obtain ⟨-, hexact⟩ := Snapshot.warning_iff_guessesSound hids htimed h
  exact ⟨hids, htimed, r, h, hr, (hexact halves_exact).1 hr⟩

/-- The millisecond after a long film, of a tape. -/
def tapeEnd : Clip := { lastClip with mediaId := "tape" }

/-- A film that is known to have sound, and the end of a tape of which that is not known. -/
def filmBeforeTape : Snapshot :=
  { longFilm with
    clips := [longClip, tapeEnd]
    media := [{ id := "film", name := "film.mp4", mimeType := "video/mp4" },
      { id := "tape", name := "tape.mp4", mimeType := "video/mp4" }]
    infos := [("film", { audio := .present })] }

/-- The end of the tape is heard, but its length is rounded to zero and there is no warning. -/
theorem filmBeforeTape_unwarned :
    (filmBeforeTape.clips.map Clip.id).Nodup ∧ (∀ c ∈ filmBeforeTape.clips, c.WellTimed) ∧
      filmBeforeTape.Exports 9007199254740992 ∧
      GuessesSound (filmBeforeTape.sources none) filmBeforeTape.clips 9007199254740992 ∧
      ∃ r, filmBeforeTape.compile none none = .ok (some r) ∧ r.warning = false := by
  have htimed : ∀ c ∈ filmBeforeTape.clips, c.WellTimed := by
    refine List.forall_mem_cons.2 ⟨⟨?_, ?_⟩, List.forall_mem_singleton.2 ⟨?_, ?_⟩⟩
    all_goals decide +kernel
  have hended : timelineDuration filmBeforeTape.clips = .ok (.int 9007199254740993) := by
    decide +kernel
  have hranged : filmBeforeTape.range?.map (Option.map fun r => r.holds 9007199254740992) =
      .ok (some true) := by
    decide +kernel
  have haudio : candidates (filmBeforeTape.sources none) filmBeforeTape.clips
      9007199254740992 .audio = [tapeEnd] := by
    have hlong : longClip.isOn 9007199254740992 = false := by decide +kernel
    have htape : tapeEnd.isOn 9007199254740992 = true := by decide +kernel
    change [longClip, tapeEnd].filter (fun c => c.isOn 9007199254740992) = [tapeEnd]
    simp [hlong, htape]
  have hmedia : ∀ c ∈ [tapeEnd], (filmBeforeTape.sources none).mediaOf? c =
      some { id := "tape", name := "tape.mp4", mimeType := "video/mp4" } := by
    decide +kernel
  have hwarned : (filmBeforeTape.compile none none).map (·.map ExportResult.warning) =
      .ok (some false) := by
    decide +kernel
  refine ⟨by decide, htimed, ⟨by norm_num, ⟨_, hended, ?_⟩, ?_⟩, ⟨?_, ?_⟩, ?_⟩
  · exact Number.isAfter_int.2 (by norm_num)
  · exact exists_of_map_eq hranged
  · intro channel c hc
    have hmem : c ∈ candidates (filmBeforeTape.sources none) filmBeforeTape.clips
        9007199254740992 .audio := by
      cases channel with
      | audio => exact IsTopmost.mem hc
      | video =>
          rw [candidates_video] at hc
          exact List.mem_of_mem_filter (IsTopmost.mem hc)
    rw [haudio] at hmem
    exact ⟨_, hmedia c hmem, rfl⟩
  · refine ⟨tapeEnd, _, ?_, hmedia tapeEnd (List.mem_singleton_self tapeEnd), ?_⟩
    · rw [haudio]
      exact isWinner_singleton tapeEnd
    · decide +kernel
  · exact exists_of_map_eq hwarned

end Montage
