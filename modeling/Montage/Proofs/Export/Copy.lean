import Montage.Proofs.Export.Compile
import Montage.Proofs.Timeline.Source

/-!
When an export copies.

The planner looks at the runs of joined segments and at the clips in them.  Runs of the same clips
mean the same winners at every instant, since the clip that is heard is then one that could be seen
too; and the same untouched winners at every instant mean runs of the same clips.
-/

namespace Montage

namespace CopyContext

variable {k : CopyContext} {source r : Option String}

/-- What it takes to copy a clip. -/
theorem copiesClip_iff {c : Clip} :
    k.copiesClip c = true ↔ c.playSpeed.eq 1 = true ∧ c.reversed = false ∧
      c.muted = false ∧ c.visible = true ∧ (k.rule c).isNeutral = true := by
  simp only [copiesClip, Bool.and_eq_true, Bool.not_eq_true', and_assoc]

/-- What it takes to copy a segment. -/
structure Copies (k : CopyContext) (g : Segment) : Prop where
  lasts : ∃ d, g.duration = .ok d ∧ d.le 0 = false
  seen : g.video ≠ []
  heard : g.audio ≠ []
  same_ids : g.video.map Clip.id = g.audio.map Clip.id
  clips : ∀ c ∈ g.video, k.copiesClip c = true

theorem copiesSegment_iff {g : Segment} :
    k.copiesSegment g = .ok true ↔ k.Copies g := by
  simp only [copiesSegment, bind_eq_ok, refuse_eq_ok, Bool.not_eq_true]
  constructor
  · rintro ⟨d, hd, hpos, h⟩
    have hall := Except.ok.inj h
    simp only [Bool.and_eq_true, Bool.not_eq_true', List.isEmpty_eq_false_iff,
      beq_iff_eq, List.all_eq_true] at hall
    exact ⟨⟨d, hd, hpos⟩, hall.1.1.1, hall.1.1.2, hall.1.2, hall.2⟩
  · rintro ⟨⟨d, hd, hpos⟩, hseen, hheard, hids, hclips⟩
    refine ⟨d, hd, hpos, congrArg Except.ok ?_⟩
    simp only [Bool.and_eq_true, Bool.not_eq_true', List.isEmpty_eq_false_iff,
      beq_iff_eq, List.all_eq_true]
    exact ⟨⟨⟨hseen, hheard⟩, hids⟩, hclips⟩

/-- A shared source is that of every clip, and the one that was shared before. -/
theorem sharedSource_cases {clips : List Clip}
    (h : sharedSource source clips = some r) :
    (∀ c ∈ clips, r = some c.mediaId) ∧ ∀ id, source = some id → r = some id := by
  induction clips generalizing source with
  | nil =>
      obtain rfl := Option.some.inj h
      exact ⟨by simp, fun id hid => hid⟩
  | cons c rest ih =>
      rcases source with _ | id
      · obtain ⟨hrest, hsource⟩ := ih h
        exact ⟨List.forall_mem_cons.2 ⟨hsource c.mediaId rfl, hrest⟩, by simp⟩
      · simp only [sharedSource] at h
        split at h
        · next hid =>
            obtain ⟨hrest, hsource⟩ := ih h
            rw [beq_iff_eq] at hid
            exact ⟨List.forall_mem_cons.2
              ⟨(hsource id rfl).trans (congrArg some hid.symm), hrest⟩, hsource⟩
        · simp only [reduceCtorEq] at h

theorem sharedSource_of_forall {clips : List Clip} {id : String}
    (hclips : ∀ c ∈ clips, c.mediaId = id)
    (hsource : source = some id ∨ source = none ∧ clips ≠ []) :
    sharedSource source clips = some (some id) := by
  induction clips generalizing source with
  | nil =>
      rcases hsource with rfl | ⟨-, hne⟩
      · rfl
      · exact absurd rfl hne
  | cons c rest ih =>
      obtain ⟨hc, hrest⟩ := List.forall_mem_cons.1 hclips
      rcases hsource with rfl | ⟨rfl, -⟩
      · simp only [sharedSource, hc, beq_self_eq_true, ↓reduceIte]
        exact ih hrest (Or.inl rfl)
      · rw [sharedSource, hc]
        exact ih hrest (Or.inl rfl)

/-- The window of a segment is that of the slice of its winner. -/
def IsWindow (g : Segment) (w : Window) : Prop :=
  ∃ c d, g.winner? .video = some c ∧ g.duration = .ok d ∧
    Window.ofSlice c g.start d = .ok w

/-- Windows are found for the first segment and for those after it. -/
theorem windows_cons {g : Segment} {rest : List Segment} {ws : List Window}
    (h : k.windows source (g :: rest) = .ok (some (r, ws))) :
    k.Copies g ∧ ∃ shared w later, sharedSource source g.video = some shared ∧
      IsWindow g w ∧ k.windows shared rest = .ok (some (r, later)) ∧
      ws = w :: later := by
  simp only [windows, bind_eq_ok] at h
  obtain ⟨copies, hcopies, h⟩ := h
  cases copies with
  | false => simp [pure, Except.pure] at h
  | true =>
      simp only [Bool.not_true, Bool.false_eq_true, ↓reduceIte] at h
      rcases hshared : sharedSource source g.video with _ | shared
      · simp [hshared, pure, Except.pure] at h
      · rcases hc : g.winner? .video with _ | c
        · simp [hshared, hc, pure, Except.pure] at h
        · simp only [hshared, hc, bind_eq_ok] at h
          obtain ⟨d, hd, w, hw, found, hfound, h⟩ := h
          obtain ⟨⟨r', later⟩, rfl, hr⟩ :=
            Option.map_eq_some_iff.1 (Except.ok.inj h)
          obtain ⟨rfl, rfl⟩ := Prod.mk.inj hr
          exact ⟨copiesSegment_iff.1 hcopies, shared, w, later, rfl,
            ⟨c, d, hc, hd, hw⟩, hfound, rfl⟩

/-- Windows are found only when every segment copies clips of one source. -/
theorem windows_cases {segments : List Segment} {ws : List Window}
    (h : k.windows source segments = .ok (some (r, ws))) :
    (∀ g ∈ segments, k.Copies g ∧ ∀ c ∈ g.video, r = some c.mediaId) ∧
      ∀ id, source = some id → r = some id := by
  induction segments generalizing source ws with
  | nil =>
      obtain rfl : source = r :=
        (Prod.mk.inj (Option.some.inj (Except.ok.inj h))).1
      exact ⟨by simp, fun id hid => hid⟩
  | cons g rest ih =>
      obtain ⟨hcopies, shared, w, later, hshared, -, hlater, -⟩ := windows_cons h
      obtain ⟨hrest, hsource⟩ := ih hlater
      obtain ⟨hclips, hbefore⟩ := sharedSource_cases hshared
      refine ⟨List.forall_mem_cons.2 ⟨⟨hcopies, ?_⟩, hrest⟩, ?_⟩
      · intro c hc
        exact hsource c.mediaId (hclips c hc)
      · intro id hid
        exact hsource id (hbefore id hid)

theorem windows_forall₂ {segments : List Segment} {ws : List Window}
    (h : k.windows source segments = .ok (some (r, ws))) :
    List.Forall₂ IsWindow segments ws := by
  induction segments generalizing source ws with
  | nil =>
      obtain rfl : [] = ws := (Prod.mk.inj (Option.some.inj (Except.ok.inj h))).2
      exact .nil
  | cons g rest ih =>
      obtain ⟨-, shared, w, later, -, hw, hlater, rfl⟩ := windows_cons h
      exact .cons hw (ih hlater)

/-- Where every segment copies clips of one source, windows are found. -/
theorem windows_of_forall {segments : List Segment} {id : String}
    (hall : ∀ g ∈ segments, k.Copies g ∧ ∀ c ∈ g.video, c.mediaId = id)
    (hsource : source = some id ∨ source = none ∧ segments ≠ [])
    {o : Option (Option String × List Window)}
    (h : k.windows source segments = .ok o) : ∃ ws, o = some (some id, ws) := by
  induction segments generalizing source o with
  | nil =>
      obtain rfl := Except.ok.inj h
      rcases hsource with rfl | ⟨-, hne⟩
      · exact ⟨[], rfl⟩
      · exact absurd rfl hne
  | cons g rest ih =>
      obtain ⟨⟨hcopies, hmedia⟩, hrest⟩ := List.forall_mem_cons.1 hall
      have hshared : sharedSource source g.video = some (some id) :=
        sharedSource_of_forall hmedia
          (hsource.imp_right fun hnone => ⟨hnone.1, hcopies.seen⟩)
      obtain ⟨c, hc⟩ : ∃ c, g.winner? .video = some c :=
        Option.isSome_iff_exists.1 (List.isSome_head?.2 hcopies.seen)
      simp only [windows, copiesSegment_iff.2 hcopies, hshared, hc,
        bind_eq_ok] at h
      obtain ⟨copies, hcopies', h⟩ := h
      obtain rfl := Except.ok.inj hcopies'
      simp only [Bool.not_true, Bool.false_eq_true, ↓reduceIte, bind_eq_ok] at h
      obtain ⟨d, -, w, -, rest', hrest', h⟩ := h
      obtain ⟨ws, rfl⟩ := ih hrest (Or.inl rfl) hrest'
      obtain rfl := Except.ok.inj h
      exact ⟨w :: ws, rfl⟩

/-- A media item that a plan may copy from. -/
structure Usable (k : CopyContext) (m : Media) : Prop where
  found : findMedia? k.sources.media m.id = some m
  online : m.offline = false
  video : m.hasVideo (k.sources.infoOf m) = true
  audio : m.hasAudio (k.sources.infoOf m) = true

theorem usable_eq_some {id : String} {m : Media} (h : k.usable id = some m) :
    m.id = id ∧ k.Usable m := by
  obtain ⟨hfind, hm⟩ := Option.filter_eq_some_iff.1 h
  have hid : m.id = id := by
    simpa using List.find?_some hfind
  simp only [Bool.and_eq_true, Bool.not_eq_true'] at hm
  exact ⟨hid, hid.symm ▸ hfind, hm.1.1, hm.1.2, hm.2⟩

theorem Usable.usable_eq {m : Media} (h : k.Usable m) :
    k.usable m.id = some m := by
  rw [usable, h.found, Option.filter_some, if_pos]
  simp only [h.online, h.video, h.audio, Bool.not_false, Bool.and_self]

/-- What a copy plan is made of. -/
theorem plan_eq_some {segments : List Segment} {plan : CopyPlan}
    (h : k.plan segments = .ok (some plan)) :
    k.Usable plan.media ∧
      k.windows none segments = .ok (some (some plan.media.id, plan.windows)) ∧
      plan.warning = Media.audioInferred (k.sources.infoOf plan.media) := by
  simp only [CopyContext.plan, bind_eq_ok] at h
  obtain ⟨o, ho, h⟩ := h
  rcases o with _ | ⟨_ | id, ws⟩
  · simp [pure, Except.pure] at h
  · simp [pure, Except.pure] at h
  · obtain ⟨m, hm, rfl⟩ := Option.map_eq_some_iff.1 (Except.ok.inj h)
    obtain ⟨rfl, husable⟩ := usable_eq_some hm
    exact ⟨husable, ho, rfl⟩

/-- A copy plan is made when every segment copies clips of one usable source,
and only then. -/
theorem plan_cases {segments : List Segment} {plan : CopyPlan}
    (h : k.plan segments = .ok (some plan)) :
    ∃ m, k.Usable m ∧
      ∀ g ∈ segments, k.Copies g ∧ ∀ c ∈ g.video, c.mediaId = m.id := by
  obtain ⟨husable, hwindows, -⟩ := plan_eq_some h
  refine ⟨plan.media, husable, ?_⟩
  intro g hg
  obtain ⟨hcopies, hmedia⟩ := (windows_cases hwindows).1 g hg
  exact ⟨hcopies, fun c hc => (Option.some.inj (hmedia c hc)).symm⟩

theorem plan_ne_none {segments : List Segment} {m : Media} (hm : k.Usable m)
    (hne : segments ≠ [])
    (hall : ∀ g ∈ segments, k.Copies g ∧ ∀ c ∈ g.video, c.mediaId = m.id) :
    k.plan segments ≠ .ok none := by
  intro h
  simp only [CopyContext.plan, bind_eq_ok] at h
  obtain ⟨o, ho, h⟩ := h
  obtain ⟨ws, rfl⟩ := windows_of_forall hall (Or.inr ⟨rfl, hne⟩) ho
  simp [hm.usable_eq, pure, Except.pure] at h

end CopyContext

/-- At an instant, one clip is heard and seen, and plays a media item as it
is. -/
structure PlaysUntouched (k : CopyContext) (clips : List Clip) (m : Media)
    (t : Instant) (c : Clip) : Prop where
  heard : IsWinner (some c) (candidates k.sources clips t .audio)
  seen : IsWinner (some c) (candidates k.sources clips t .video)
  media : c.mediaId = m.id
  speed : c.playSpeed.eq 1 = true
  forward : c.reversed = false
  unmuted : c.muted = false
  visible : c.visible = true
  neutral : (k.rule c).isNeutral = true

theorem PlaysUntouched.copiesClip {k : CopyContext} {clips : List Clip}
    {m : Media} {t : Instant} {c : Clip} (h : PlaysUntouched k clips m t c) :
    k.copiesClip c = true :=
  CopyContext.copiesClip_iff.2
    ⟨h.speed, h.forward, h.unmuted, h.visible, h.neutral⟩

/-- A segment with the same clips in both runs has, at each of its instants, one
winner for both channels, and that is in the runs. -/
theorem Carries.exists_winner {sources : Sources} {clips : List Clip}
    {g : Segment} (h : Carries sources clips g) (hclips : Coherent clips)
    (hheard : g.audio ≠ []) (hids : g.video.map Clip.id = g.audio.map Clip.id)
    {t : Instant} (ht : g.holds t = true) :
    ∃ c ∈ g.video, IsWinner (some c) (candidates sources clips t .audio) ∧
      IsWinner (some c) (candidates sources clips t .video) := by
  have hcandidates : candidates sources clips t .audio ≠ [] := by
    intro hnil
    exact hheard ((h.nil_iff t ht .audio).2 hnil)
  obtain ⟨c, hc⟩ : ∃ c, topmost? (candidates sources clips t .audio) = some c := by
    rw [← Option.isSome_iff_exists, Option.isSome_iff_ne_none, ne_eq,
      topmost?_eq_none_iff]
    exact hcandidates
  have haudio : c ∈ g.audio := h.winner_mem t ht .audio c hc
  -- the clip of this id in the other run is this clip, so it could be seen
  obtain ⟨v, hv, hid⟩ := List.mem_map.1 (hids ▸ List.mem_map_of_mem haudio :
    c.id ∈ g.video.map Clip.id)
  obtain rfl : v = c :=
    hclips v (h.within .video v hv) c (h.within .audio c haudio) hid
  obtain ⟨u, hu⟩ := h.played .video v hv
  rw [candidates_video] at hu
  have hwinner : IsTopmost v (candidates sources clips t .audio) :=
    isWinner_iff.2 hc
  refine ⟨v, hv, hwinner, ?_⟩
  rw [candidates_video]
  exact hwinner.filter (List.mem_filter.1 hu).2

namespace Snapshot

variable {s : Snapshot} {infos : Option (List (String × MediaInfo))}
  {rule : Option FilterRule} {r : ExportResult}

/-- What a snapshot makes its copy plan from. -/
def copyContext (s : Snapshot) (infos : Option (List (String × MediaInfo)))
    (rule : Option FilterRule) : CopyContext :=
  ⟨s.sources infos, s.ruleFor rule⟩

/-- Copying is allowed, and at every exported instant a clip of one usable
media item is played as it is. -/
def NeedsNoRendering (s : Snapshot) (infos : Option (List (String × MediaInfo)))
    (rule : Option FilterRule) : Prop :=
  s.settings.mayCopy = true ∧
    ∃ m, (s.copyContext infos rule).Usable m ∧ ∀ t, s.Exports t →
      ∃ c, PlaysUntouched (s.copyContext infos rule) s.clips m t c

/-- What is copied needs no rendering. -/
theorem needsNoRendering_of_plan {joined : Joined} {range : ExportRange}
    {segments : List Segment} {a b : Place} {plan : CopyPlan}
    (hclips : Coherent s.clips)
    (hplanned : s.Planned infos rule joined range segments a b)
    (h : s.copyPlan infos rule joined.segments = .ok (some plan)) :
    s.NeedsNoRendering infos rule := by
  obtain ⟨hmay, hplan⟩ := copyPlan_cases h
  obtain ⟨m, hm, hall⟩ := CopyContext.plan_cases hplan
  refine ⟨hmay, m, hm, ?_⟩
  intro t ht
  obtain ⟨hat, htb⟩ := hplanned.exported t ht
  obtain ⟨g, hg, hholds, -⟩ :=
    (joinAll_tiles hplanned.cut.tiles hplanned.joins).exists_filter_holds hat htb
  obtain ⟨hcopies, hmedia⟩ := hall g hg
  have hcarries := joinAll_carries hclips hplanned.cut.tiles
    hplanned.cut.shows hplanned.joins g hg
  obtain ⟨c, hc, hheard, hseen⟩ :=
    hcarries.exists_winner hclips hcopies.heard hcopies.same_ids hholds
  obtain ⟨hspeed, hforward, hunmuted, hvisible, hneutral⟩ :=
    CopyContext.copiesClip_iff.1 (hcopies.clips c hc)
  exact ⟨c, hheard, hseen, hmedia c hc, hspeed, hforward, hunmuted, hvisible,
    hneutral⟩

/-- What needs no rendering is planned as segments that all copy clips of one
source, as far as each of them has a length. -/
theorem copies_of_needsNoRendering {joined : Joined} {range : ExportRange}
    {segments : List Segment} {a b : Place} {m : Media}
    (hplanned : s.Planned infos rule joined range segments a b)
    (hends : ∀ c ∈ s.clips, ∀ e, c.stop = .ok e → c.start.le e = true)
    (huntouched : ∀ t, s.Exports t →
      ∃ c, PlaysUntouched (s.copyContext infos rule) s.clips m t c)
    (hlasts : ∀ g ∈ joined.segments, ∃ d, g.duration = .ok d ∧ d.le 0 = false) :
    ∀ g ∈ joined.segments, (s.copyContext infos rule).Copies g ∧
      ∀ c ∈ g.video, c.mediaId = m.id := by
  let k := s.copyContext infos rule
  have hsingle : ∀ u ∈ segments, ∃ c, (∀ channel, u.run channel = [c]) ∧
      k.copiesClip c = true ∧ c.mediaId = m.id := by
    intro u hu
    obtain ⟨p, e, hp, he, hap, hpe, heb⟩ := hplanned.cut.tiles.places_of_mem hu
    obtain ⟨t, ht, hpt, hte⟩ :=
      exists_instant (hplanned.cut.nonneg.trans hap) hpe
    obtain ⟨c, hc⟩ := huntouched t (hplanned.exports hends t ht (hap.trans hpt)
      (hte.trans_le heb))
    have hholds : u.holds t = true := (Segment.holds_iff hp he).2 ⟨hpt, hte⟩
    refine ⟨c, ?_, hc.copiesClip, hc.media⟩
    intro channel
    rw [(hplanned.cut.shows u hu).plays t hholds channel]
    cases channel with
    | audio => exact congrArg Option.toList (isWinner_iff.1 hc.heard)
    | video => exact congrArg Option.toList (isWinner_iff.1 hc.seen)
  have hruns : ∀ g ∈ joined.segments, g.video = g.audio ∧ g.video ≠ [] ∧
      ∀ c ∈ g.video, k.copiesClip c = true ∧ c.mediaId = m.id := by
    refine joinAll_forall (M := fun _ _ => True) ?_ ?_ hsingle
      (hplanned.cut.tiles.isChain.imp fun _ _ _ => trivial) hplanned.joins
    · rintro u ⟨c, hc, hcopies, hmedia⟩
      have hvideo : u.video = [c] := hc .video
      have haudio : u.audio = [c] := hc .audio
      rw [hvideo, haudio]
      exact ⟨rfl, by simp, List.forall_mem_singleton.2 ⟨hcopies, hmedia⟩⟩
    · rintro u v ⟨hsame, hne, hu⟩ ⟨c, hc, hcopies, hmedia⟩ - -
      have hvideo : v.video = [c] := hc .video
      have haudio : v.audio = [c] := hc .audio
      simp only [Segment.joined, hvideo, haudio, ← hsame, true_and]
      constructor
      · obtain ⟨d, hd⟩ := List.exists_mem_of_ne_nil _ hne
        exact List.ne_nil_of_mem (mem_extendRun_left [c] hd)
      · intro d hd
        rcases mem_of_mem_extendRun hd with hd | hd
        · exact hu d hd
        · rw [List.mem_singleton.1 hd]
          exact ⟨hcopies, hmedia⟩
  intro g hg
  obtain ⟨hsame, hne, hall⟩ := hruns g hg
  exact ⟨⟨hlasts g hg, hne, hsame ▸ hne, by rw [hsame],
    fun c hc => (hall c hc).1⟩, fun c hc => (hall c hc).2⟩

/-- Clips whose times binary64 holds exactly do not end before they start. -/
theorem start_le_stop_of_exact {c : Clip} (htimed : c.WellTimed)
    (hexact : c.start.IsExact) {e : Number} (he : c.stop = .ok e) :
    c.start.le e = true :=
  Number.le_add hexact htimed.start_nonneg (Number.le_of_lt htimed.duration_pos)
    he

/-- Planned segments between times that binary64 holds exactly have a length. -/
theorem lasts_of_exact {joined : Joined} {range : ExportRange}
    {segments : List Segment} {a b : Place}
    (hplanned : s.Planned infos rule joined range segments a b)
    (hexact : ∀ c ∈ s.clips, c.start.IsExact ∧ ∀ e, c.stop = .ok e → e.IsExact) :
    ∀ g ∈ joined.segments, ∃ d, g.duration = .ok d ∧ d.le 0 = false := by
  obtain ⟨e, hset⟩ := hplanned.set
  have hbound : ∀ x, IsCutBound s.clips range x → x.IsExact := by
    rintro x ((rfl | ⟨c, hc, rfl | he⟩) | rfl | hx)
    · exact Number.isExact_int (n := 0) (by simpa using IsCount.zero)
    · exact (hexact c hc).1
    · exact (hexact c hc).2 x he
    · obtain ⟨y, hy⟩ := hset.start_float
      rw [hy]
      exact Number.isExact_float y
    · obtain ⟨y, rfl⟩ := hset.stop_float x hx
      exact Number.isExact_float y
  have hbounds : ∀ g ∈ joined.segments,
      IsCutBound s.clips range g.start ∧ IsCutBound s.clips range g.stop :=
    joinAll_forall (M := fun _ _ => True) (fun _ hu => hu)
      (fun _ _ hu hv _ _ => ⟨hu.1, hv.2⟩) hplanned.cut.bounds
      (hplanned.cut.tiles.isChain.imp fun _ _ _ => trivial) hplanned.joins
  intro g hg
  obtain ⟨p, q, hp, hq, -, hpq, -⟩ :=
    (joinAll_tiles hplanned.cut.tiles hplanned.joins).places_of_mem hg
  exact Number.sub_pos (hbound _ (hbounds g hg).1) (hbound _ (hbounds g hg).2)
    ((Number.lt_iff hp hq).2 hpq)

section Compiled

variable (hids : (s.clips.map Clip.id).Nodup) (htimed : ∀ c ∈ s.clips, c.WellTimed)
  (h : s.compile infos rule = .ok (some r))
include hids htimed h

theorem needsNoRendering_of_copied (hr : r.copied = true) : s.NeedsNoRendering infos rule := by
  obtain ⟨joined, hplan, -, -, ⟨plan, hcopy, -⟩ | ⟨-, hr'⟩⟩ := compile_cases h
  · obtain ⟨range, segments, a, b, hplanned⟩ := exists_planned hids htimed hplan
    exact needsNoRendering_of_plan (coherent_of_nodup hids) hplanned hcopy
  · rw [hr'] at hr
    exact absurd hr Bool.false_ne_true

theorem copied_of_needsNoRendering
    (hends : ∀ c ∈ s.clips, ∀ e, c.stop = .ok e → c.start.le e = true)
    (hlasts : ∀ g ∈ r.segments, ∃ d, g.duration = .ok d ∧ d.le 0 = false)
    (hneeds : s.NeedsNoRendering infos rule) : r.copied = true := by
  obtain ⟨hmay, m, hm, huntouched⟩ := hneeds
  obtain ⟨joined, hplan, hsegments, hne, ⟨plan, -, hr⟩ | ⟨hnone, -⟩⟩ := compile_cases h
  · exact hr
  · obtain ⟨range, segments, a, b, hplanned⟩ := exists_planned hids htimed hplan
    rw [copyPlan, if_pos hmay] at hnone
    exact absurd hnone (CopyContext.plan_ne_none hm hne
      (copies_of_needsNoRendering hplanned hends huntouched (hsegments ▸ hlasts)))

/-- Between times that binary64 holds exactly, what needs no rendering is copied. -/
theorem copied_of_exact
    (hexact : ∀ c ∈ s.clips, c.start.IsExact ∧ ∀ e, c.stop = .ok e → e.IsExact)
    (hneeds : s.NeedsNoRendering infos rule) : r.copied = true := by
  obtain ⟨joined, hplan, hsegments, -⟩ := compile_cases h
  obtain ⟨range, segments, a, b, hplanned⟩ := exists_planned hids htimed hplan
  refine copied_of_needsNoRendering hids htimed h ?_ ?_ hneeds
  · intro c hc e he
    exact start_le_stop_of_exact (htimed c hc) (hexact c hc).1 he
  · rw [hsegments]
    exact lasts_of_exact hplanned hexact

end Compiled

/-- An export that is copied needs no rendering.  Conversely, one that needs no
rendering is copied as long as rounding lets no clip end before it starts and
no planned segment lose its length, which it does not where binary64 holds the
times of the clips exactly. -/
theorem copied_iff_needsNoRendering (hids : (s.clips.map Clip.id).Nodup)
    (htimed : ∀ c ∈ s.clips, c.WellTimed)
    (h : s.compile infos rule = .ok (some r)) :
    (r.copied = true → s.NeedsNoRendering infos rule) ∧
      ((∀ c ∈ s.clips, ∀ e, c.stop = .ok e → c.start.le e = true) →
        (∀ g ∈ r.segments, ∃ d, g.duration = .ok d ∧ d.le 0 = false) →
        s.NeedsNoRendering infos rule → r.copied = true) ∧
      ((∀ c ∈ s.clips, c.start.IsExact ∧ ∀ e, c.stop = .ok e → e.IsExact) →
        s.NeedsNoRendering infos rule → r.copied = true) :=
  ⟨needsNoRendering_of_copied hids htimed h,
    fun hends hlasts hneeds => copied_of_needsNoRendering hids htimed h hends hlasts hneeds,
    fun hexact hneeds => copied_of_exact hids htimed h hexact hneeds⟩

end Snapshot

/-- A film of two clips, exported without fades at the joints. -/
def filmOf (first second : Clip) : Snapshot where
  clips := [first, second]
  media := [{ id := "film", name := "film.mp4", mimeType := "video/mp4" }]
  settings := { deClick := .bool false }

theorem halves_exact : ∀ c ∈ (filmOf halves.1 halves.2).clips,
    c.start.IsExact ∧ ∀ e, c.stop = .ok e → e.IsExact := by
  refine List.forall_mem_cons.2 ⟨⟨?_, ?_⟩, List.forall_mem_singleton.2 ⟨?_, ?_⟩⟩
  · exact Number.isExact_int (n := 0) (by decide +kernel)
  · intro e he
    obtain rfl : Number.int 1000 = e := Except.ok.inj he
    exact Number.isExact_int (by decide +kernel)
  · exact Number.isExact_int (n := 1000) (by decide +kernel)
  · intro e he
    obtain rfl : Number.int 2000 = e := Except.ok.inj he
    exact Number.isExact_int (by decide +kernel)

theorem halves_copied :
    ((filmOf halves.1 halves.2).clips.map Clip.id).Nodup ∧
      (∀ c ∈ (filmOf halves.1 halves.2).clips, c.WellTimed) ∧
      (∀ c ∈ (filmOf halves.1 halves.2).clips,
        c.start.IsExact ∧ ∀ e, c.stop = .ok e → e.IsExact) ∧
      ∃ r, (filmOf halves.1 halves.2).compile none none = .ok (some r) ∧
        (r.copied = true ↔ (filmOf halves.1 halves.2).NeedsNoRendering none none) ∧
        r.copied = true := by
  have hids : ((filmOf halves.1 halves.2).clips.map Clip.id).Nodup := by decide
  have htimed : ∀ c ∈ (filmOf halves.1 halves.2).clips, c.WellTimed :=
    List.forall_mem_cons.2 ⟨halves_whole.1.wellTimed,
      List.forall_mem_singleton.2 halves_whole.2.wellTimed⟩
  have hcopied : ((filmOf halves.1 halves.2).compile none none).map
      (·.map ExportResult.copied) = .ok (some true) := by
    decide +kernel
  obtain ⟨r, h, hr⟩ := exists_of_map_eq hcopied
  obtain ⟨hneeds, -, hback⟩ := Snapshot.copied_iff_needsNoRendering hids htimed h
  exact ⟨hids, htimed, halves_exact, r, h, ⟨hneeds, hback halves_exact⟩, hr⟩

/-- A clip up to the time from which on binary64 skips whole numbers. -/
def longClip : Clip :=
  { halves.1 with duration := .float (Binary64.ofInt 9007199254740992) }

/-- The millisecond after it. -/
def lastClip : Clip :=
  { halves.2 with start := 9007199254740992, duration := 1 }

def longFilm : Snapshot := filmOf longClip lastClip

/-- At each exported instant one of the two clips plays. -/
theorem longFilm_candidates {t : Instant} (ht : longFilm.Exports t) :
    ∃ c ∈ longFilm.clips,
      candidates (longFilm.sources none) longFilm.clips t .audio = [c] := by
  have hd : timelineDuration longFilm.clips = .ok (.int 9007199254740993) := by
    decide +kernel
  obtain ⟨d, hd', htd⟩ := ht.ended
  obtain rfl := Except.ok.inj (hd.symm.trans hd')
  have hend := Number.isAfter_int.1 htd
  have hlong : longClip.isOn t = ((Number.int 0).reachedAt t &&
      (Number.int 9007199254740992).isAfter t) := by
    have hstop : longClip.stop =
        .ok (.float (Binary64.ofInt 9007199254740992)) := by decide +kernel
    have hplace : (Number.float (Binary64.ofInt 9007199254740992)).place? =
        (Number.int 9007199254740992).place? := by decide +kernel
    rw [Clip.isOn_eq hstop, Number.isAfter_congr hplace]
    rfl
  have hlast : lastClip.isOn t = ((Number.int 9007199254740992).reachedAt t &&
      (Number.int 9007199254740993).isAfter t) := by
    have hstop : lastClip.stop = .ok (.int 9007199254740993) := by decide +kernel
    rw [Clip.isOn_eq hstop]
    rfl
  have hzero : (Number.int 0).reachedAt t = true :=
    Number.reachedAt_int.2 (by simpa using ht.nonneg)
  rcases lt_or_ge t 9007199254740992 with hlt | hge
  · have hafter : (Number.int 9007199254740992).isAfter t = true :=
      Number.isAfter_int.2 (by simpa using hlt)
    have hreached : (Number.int 9007199254740992).reachedAt t = false := by
      rw [← Bool.not_eq_true, Number.reachedAt_int, not_le]
      simpa using hlt
    rw [hzero, hafter] at hlong
    rw [hreached] at hlast
    refine ⟨longClip, List.mem_cons_self, ?_⟩
    change [longClip, lastClip].filter (fun c => c.isOn t) = [longClip]
    simp [hlong, hlast]
  · have hafter : (Number.int 9007199254740992).isAfter t = false := by
      rw [← Bool.not_eq_true, Number.isAfter_int, not_lt]
      simpa using hge
    have hreached : (Number.int 9007199254740992).reachedAt t = true :=
      Number.reachedAt_int.2 (by simpa using hge)
    rw [hzero, hafter] at hlong
    rw [hreached, Number.isAfter_int.2 hend] at hlast
    refine ⟨lastClip, List.mem_cons_of_mem _ List.mem_cons_self, ?_⟩
    change [longClip, lastClip].filter (fun c => c.isOn t) = [lastClip]
    simp [hlong, hlast]

/-- The length of the last millisecond is rounded to zero, so the film is
rendered although it needs no rendering. -/
theorem longFilm_rendered :
    (longFilm.clips.map Clip.id).Nodup ∧ (∀ c ∈ longFilm.clips, c.WellTimed) ∧
      longFilm.NeedsNoRendering none none ∧
      ∃ r, longFilm.compile none none = .ok (some r) ∧ r.copied = false := by
  have htimed : ∀ c ∈ longFilm.clips, c.WellTimed := by
    refine List.forall_mem_cons.2 ⟨⟨?_, ?_⟩, List.forall_mem_singleton.2 ⟨?_, ?_⟩⟩
    all_goals decide +kernel
  have hcopied : (longFilm.compile none none).map (·.map ExportResult.copied) =
      .ok (some false) := by
    decide +kernel
  have hclips : ∀ c ∈ longFilm.clips,
      (longFilm.copyContext none none).copiesClip c = true ∧
        c.mediaId = "film" ∧ (longFilm.sources none).hasPicture c = true := by
    refine List.forall_mem_cons.2 ⟨?_, List.forall_mem_singleton.2 ?_⟩ <;>
      decide +kernel
  have husable : (longFilm.copyContext none none).Usable
      { id := "film", name := "film.mp4", mimeType := "video/mp4" } := by
    refine ⟨?_, ?_, ?_, ?_⟩ <;> decide +kernel
  refine ⟨by decide, htimed, ⟨by decide +kernel, _, husable, ?_⟩, ?_⟩
  · intro t ht
    obtain ⟨c, hc, haudio⟩ := longFilm_candidates ht
    obtain ⟨hcopies, hmedia, hpicture⟩ := hclips c hc
    obtain ⟨hspeed, hforward, hunmuted, hvisible, hneutral⟩ :=
      CopyContext.copiesClip_iff.1 hcopies
    have hvideo : candidates (longFilm.sources none) longFilm.clips t .video =
        [c] := by
      rw [candidates_video, haudio]
      exact List.filter_cons_of_pos (by rw [hvisible, hpicture]; rfl)
    refine ⟨c, ?_, ?_, hmedia, hspeed, hforward, hunmuted, hvisible, hneutral⟩
    · exact haudio ▸ isWinner_singleton c
    · exact hvideo ▸ isWinner_singleton c
  · exact exists_of_map_eq hcopied

end Montage
