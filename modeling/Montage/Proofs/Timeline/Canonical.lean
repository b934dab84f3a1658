import Montage.Proofs.Timeline.Range
import Montage.Proofs.Timeline.Winner

/-!
The canonical tiling of a timeline.

Putting neighbours of the same winners together leaves no two of them side by side.  A stretch of
the timeline on which the winners stay the same therefore lies within one segment: the tiling is
the coarsest one, and two such tilings of one stretch with the same winners are alike.
-/

namespace Montage

namespace Segment

/-- On some channel two segments play different clips. -/
def Differs (s t : Segment) : Prop := ∃ channel, s.run channel ≠ t.run channel

/-- At each of its instants, a segment plays what is to be played then. -/
def Follows (played : Instant → Channel → List Clip) (s : Segment) : Prop :=
  ∀ t, s.holds t = true → ∀ channel, s.run channel = played t channel

/-- What is to be played stays the same while a segment lasts. -/
def IsSteady (played : Instant → Channel → List Clip) (s : Segment) : Prop :=
  ∀ t u, s.holds t = true → s.holds u = true →
    ∀ channel, played t channel = played u channel

/-- Two segments of the same length and place that play the same clips. -/
structure SameSlot (s t : Segment) : Prop where
  start_eq : s.start.eq t.start = true
  stop_eq : s.stop.eq t.stop = true
  run_eq : ∀ channel, s.run channel = t.run channel

theorem Follows.isSteady {played : Instant → Channel → List Clip} {s : Segment}
    (h : s.Follows played) : s.IsSteady played := by
  intro t u ht hu channel
  rw [← h t ht channel, h u hu channel]

theorem differs_of_sameWinners_eq_false {s t : Segment}
    (h : s.sameWinners t = false) : s.Differs t := by
  by_contra hsame
  simp only [Differs, not_exists, ne_eq, not_not] at hsame
  simp [sameWinners, winner?, hsame] at h

/-- Of whole times only equal ones lie at one place. -/
theorem SameSlot.eq_of_int {s t : Segment} (h : SameSlot s t) {a b a' b' : Int}
    (ha : s.start = .int a) (hb : s.stop = .int b) (ha' : t.start = .int a')
    (hb' : t.stop = .int b') : s = t := by
  obtain ⟨hstart, hstop, hrun⟩ := h
  rw [ha, ha', Number.int_eq_int] at hstart
  rw [hb, hb', Number.int_eq_int] at hstop
  obtain ⟨start, stop, video, audio⟩ := s
  obtain ⟨start', stop', video', audio'⟩ := t
  obtain rfl : video = video' := hrun .video
  obtain rfl : audio = audio' := hrun .audio
  obtain rfl : start = start' := ha.trans ((congrArg _ hstart).trans ha'.symm)
  obtain rfl : stop = stop' := hb.trans ((congrArg _ hstop).trans hb'.symm)
  rfl

theorem eq_of_sameSlots {segments segments' : List Segment}
    (h : List.Forall₂ SameSlot segments segments')
    (hint : ∀ u ∈ segments, ∃ m n : Int, u.start = .int m ∧ u.stop = .int n)
    (hint' : ∀ u ∈ segments', ∃ m n : Int, u.start = .int m ∧ u.stop = .int n) :
    segments = segments' := by
  induction h with
  | nil => rfl
  | cons hs _ ih =>
      obtain ⟨⟨m, n, hm, hn⟩, hrest⟩ := List.forall_mem_cons.1 hint
      obtain ⟨⟨m', n', hm', hn'⟩, hrest'⟩ := List.forall_mem_cons.1 hint'
      rw [hs.eq_of_int hm hn hm' hn', ih hrest hrest']

end Segment

section Collapse

variable {sources : Sources} {clips : List Clip} {placed : List Placed}

/-- The first segment that is left keeps the start and the winners of the
first one. -/
theorem exists_collapseFrom_eq_cons (current : Segment) (rest : List Segment) :
    ∃ stop more, collapseFrom current rest = { current with stop := stop } :: more := by
  induction rest generalizing current with
  | nil => exact ⟨current.stop, [], rfl⟩
  | cons s rest ih =>
      simp only [collapseFrom]
      split
      · exact ih { current with stop := s.stop }
      · exact ⟨current.stop, collapseFrom s rest, rfl⟩

theorem collapseFrom_isChain (current : Segment) (rest : List Segment) :
    (collapseFrom current rest).IsChain fun s t => s.sameWinners t = false := by
  induction rest generalizing current with
  | nil => exact .singleton current
  | cons s rest ih =>
      simp only [collapseFrom]
      split
      · exact ih _
      · next hdiffer =>
          refine (ih s).cons ?_
          intro t ht
          obtain ⟨stop, more, hmore⟩ := exists_collapseFrom_eq_cons s rest
          rw [hmore] at ht
          obtain rfl := Option.some.inj ht
          exact Bool.eq_false_iff.2 hdiffer

/-- Of the segments that are left no two neighbours have the same winners. -/
theorem collapse_isChain (segments : List Segment) :
    (collapse segments).IsChain fun s t => s.sameWinners t = false := by
  cases segments with
  | nil => exact .nil
  | cons s rest => exact collapseFrom_isChain s rest

theorem length_collapse_le (segments : List Segment) :
    (collapse segments).length ≤ segments.length := by
  have hfrom : ∀ (current : Segment) (rest : List Segment),
      (collapseFrom current rest).length ≤ rest.length + 1 := by
    intro current rest
    induction rest generalizing current with
    | nil => exact le_rfl
    | cons s rest ih =>
        simp only [collapseFrom, List.length_cons]
        split
        · exact (ih _).trans (Nat.le_succ _)
        · exact Nat.succ_le_succ (ih s)
  cases segments with
  | nil => exact le_rfl
  | cons s rest => exact hfrom s rest

theorem length_insertTime_le (t : Number) (times : List Number) :
    (insertTime t times).length ≤ times.length + 1 := by
  induction times with
  | nil => exact le_rfl
  | cons s rest ih =>
      simp only [insertTime]
      split
      · exact Nat.le_succ _
      · split
        · exact le_rfl
        · exact Nat.succ_le_succ ih

theorem length_addTimes_le (bounds : List Number) (placed : List Placed) :
    (addTimes bounds placed).length ≤ bounds.length + 2 * placed.length := by
  induction placed generalizing bounds with
  | nil => exact le_rfl
  | cons p rest ih =>
      have hrest : (addTimes bounds (p :: rest)).length ≤ _ :=
        ih (insertTime p.stop (insertTime p.clip.start bounds))
      have hstart := length_insertTime_le p.clip.start bounds
      have hstop := length_insertTime_le p.stop (insertTime p.clip.start bounds)
      rw [List.length_cons]
      omega

theorem length_segmentsBetween_le (sources : Sources) (placed : List Placed)
    (times : List Number) :
    (segmentsBetween sources placed times).length ≤ times.length - 1 := by
  match times with
  | [] | [_] => exact Nat.zero_le _
  | start :: stop :: rest =>
      have hlater := length_segmentsBetween_le sources placed (stop :: rest)
      simp only [segmentsBetween, List.length_cons, Nat.add_sub_cancel] at hlater ⊢
      split
      · exact hlater.trans (Nat.le_succ _)
      · exact Nat.succ_le_succ hlater

theorem length_walk_le (sources : Sources) (placed : List Placed) :
    (walk sources placed).length ≤ 2 * placed.length := by
  simp only [walk]
  split
  · exact Nat.zero_le _
  · have hbounds := length_addTimes_le [0] placed
    have hbetween := length_segmentsBetween_le sources placed (boundaries placed)
    rw [boundaries_eq_addTimes] at hbetween ⊢
    rw [List.length_singleton] at hbounds
    omega

/-- The resolved segments are what is left of those between all boundaries. -/
theorem resolve_eq_collapse {segments : List Segment}
    (h : resolve sources clips = .ok segments) :
    ∃ placed : List Placed, placed.length = clips.length ∧
      segments = collapse (walk sources placed) := by
  simp only [resolve, bind_eq_ok] at h
  obtain ⟨placed, hplaced, h⟩ := h
  refine ⟨placed, ?_, (Except.ok.inj h).symm⟩
  clear h
  induction clips generalizing placed with
  | nil =>
      obtain rfl : [] = placed := Except.ok.inj hplaced
      rfl
  | cons c rest ih =>
      simp only [List.mapM_cons, bind_eq_ok] at hplaced
      obtain ⟨p, -, ps, hps, hplaced⟩ := hplaced
      obtain rfl : p :: ps = placed := Except.ok.inj hplaced
      rw [List.length_cons, List.length_cons, ih ps hps]

theorem resolve_isChain {segments : List Segment}
    (h : resolve sources clips = .ok segments) :
    segments.IsChain fun s t => s.sameWinners t = false := by
  obtain ⟨placed, -, rfl⟩ := resolve_eq_collapse h
  exact collapse_isChain _

end Collapse

section Coarsest

variable {played : Instant → Channel → List Clip} {a b : Place}
  {segments : List Segment}

/-- What stays the same on a stretch that begins in the first segment of a
tiling is over by the end of that segment. -/
theorem Tiles.stop_le_of_isSteady {s u : Segment} {rest : List Segment}
    {e q r : Place} (htiles : Tiles a b (s :: rest)) (ha : Place.point 0 ≤ a)
    (he : s.stop.place? = some e)
    (hfollows : ∀ x ∈ s :: rest, x.Follows played)
    (hdiffers : (s :: rest).IsChain Segment.Differs)
    (hq : u.start.place? = some q) (hr : u.stop.place? = some r)
    (haq : a ≤ q) (hqe : q < e) (hrb : r ≤ b) (hu : u.IsSteady played) :
    r ≤ e := by
  obtain ⟨hstart, e', he', -, hrest⟩ := htiles
  obtain rfl : e' = e := Option.some.inj (he'.symm.trans he)
  by_contra her
  rw [not_le] at her
  cases rest with
  | nil =>
      obtain rfl : e' = b := hrest
      exact absurd her (not_lt.2 hrb)
  | cons t rest =>
      obtain ⟨ht, f, hf, hef, -⟩ := hrest
      have hq0 : Place.point 0 ≤ q := ha.trans haq
      -- one instant of the stretch before the seam, and one after it
      obtain ⟨v, -, hqv, hve⟩ := exists_instant hq0 hqe
      obtain ⟨w, -, hew, hwmin⟩ := exists_instant (hq0.trans hqe.le) (lt_min hef her)
      obtain ⟨hwf, hwr⟩ := lt_min_iff.1 hwmin
      have hsv : s.holds v = true :=
        (Segment.holds_iff hstart he).2 ⟨haq.trans hqv, hve⟩
      have huv : u.holds v = true :=
        (Segment.holds_iff hq hr).2 ⟨hqv, hve.trans her⟩
      have htw : t.holds w = true := (Segment.holds_iff ht hf).2 ⟨hew, hwf⟩
      have huw : u.holds w = true :=
        (Segment.holds_iff hq hr).2 ⟨hqe.le.trans hew, hwr⟩
      obtain ⟨channel, hne⟩ := hdiffers.rel
      rw [hfollows s (by simp) v hsv, hfollows t (by simp) w htw] at hne
      exact hne (hu v w huv huw channel)

/-- A stretch on which the same is to be played lies within one segment. -/
theorem Tiles.exists_covering {u : Segment} {q r : Place}
    (htiles : Tiles a b segments) (ha : Place.point 0 ≤ a)
    (hfollows : ∀ x ∈ segments, x.Follows played)
    (hdiffers : segments.IsChain Segment.Differs)
    (hq : u.start.place? = some q) (hr : u.stop.place? = some r)
    (haq : a ≤ q) (hqr : q < r) (hrb : r ≤ b) (hu : u.IsSteady played) :
    ∃ s ∈ segments, s.start.le u.start = true ∧ u.stop.le s.stop = true := by
  induction segments generalizing a with
  | nil =>
      obtain rfl : a = b := htiles
      exact absurd (haq.trans_lt hqr) (not_lt.2 hrb)
  | cons s rest ih =>
      obtain ⟨hstart, e, he, hae, hrest⟩ := htiles
      rcases lt_or_ge q e with hqe | heq
      · have hre : r ≤ e := Tiles.stop_le_of_isSteady ⟨hstart, e, he, hae, hrest⟩
          ha he hfollows hdiffers hq hr haq hqe hrb hu
        exact ⟨s, List.mem_cons_self, (Number.le_iff hstart hq).2 haq,
          (Number.le_iff hr he).2 hre⟩
      · obtain ⟨t, ht, hle⟩ := ih hrest (ha.trans hae.le)
          (fun x hx => hfollows x (List.mem_cons_of_mem s hx)) hdiffers.tail heq
        exact ⟨t, List.mem_cons_of_mem s ht, hle⟩

/-- Two tilings of one stretch are alike, when both play what is to be played
and neighbours differ in each. -/
theorem Tiles.forall₂_sameSlot {first second : List Segment}
    (hfirst : Tiles a b first) (hsecond : Tiles a b second)
    (ha : Place.point 0 ≤ a) (hf : ∀ x ∈ first, x.Follows played)
    (hs : ∀ x ∈ second, x.Follows played)
    (hdf : first.IsChain Segment.Differs) (hds : second.IsChain Segment.Differs) :
    List.Forall₂ Segment.SameSlot first second := by
  induction first generalizing second a with
  | nil =>
      obtain rfl : a = b := hfirst
      rw [hsecond.eq_nil]
      exact .nil
  | cons s rest ih =>
      obtain ⟨hstart, e, he, hae, hrest⟩ := hfirst
      cases second with
      | nil =>
          obtain rfl : a = b := hsecond
          exact absurd hae (not_lt.2 hrest.le)
      | cons t later =>
          obtain ⟨hstart', e', he', hae', hlater⟩ := hsecond
          have hs0 := hf s (by simp)
          have ht0 := hs t (by simp)
          have hle : e' ≤ e := Tiles.stop_le_of_isSteady
            ⟨hstart, e, he, hae, hrest⟩ ha he hf hdf hstart' he' le_rfl hae
            hlater.le ht0.isSteady
          have hge : e ≤ e' := Tiles.stop_le_of_isSteady
            ⟨hstart', e', he', hae', hlater⟩ ha he' hs hds hstart he le_rfl hae'
            hrest.le hs0.isSteady
          obtain rfl : e = e' := le_antisymm hge hle
          obtain ⟨v, -, hav, hve⟩ := exists_instant ha hae
          have hrun : ∀ channel, s.run channel = t.run channel := by
            intro channel
            rw [hs0 v ((Segment.holds_iff hstart he).2 ⟨hav, hve⟩),
              ht0 v ((Segment.holds_iff hstart' he').2 ⟨hav, hve⟩)]
          refine .cons ⟨(Number.eq_iff hstart hstart').2 rfl,
            (Number.eq_iff he he').2 rfl, hrun⟩ ?_
          exact ih hrest hlater (ha.trans hae.le)
            (fun x hx => hf x (List.mem_cons_of_mem s hx))
            (fun x hx => hs x (List.mem_cons_of_mem t hx)) hdf.tail hds.tail

end Coarsest

/-- The last time of a timeline that lasts a duration: the duration, unless a
clip starts even later. -/
def lastTime (clips : List Clip) (duration : Number) : Number :=
  (clips.map Clip.start).foldl Number.max duration

/-- What the resolved segments of some clips are: one after the other they lead
from zero to the last time, and no coarser segments have constant winners. -/
structure CanonicalTiling (sources : Sources) (clips : List Clip)
    (duration : Number) (segments : List Segment) : Prop where
  ne_nil : segments ≠ []
  start_eq : ∀ s ∈ segments.head?, s.start.eq 0 = true
  lasts : ∀ s ∈ segments, s.start.lt s.stop = true
  meets : segments.IsChain fun s t => s.stop.eq t.start = true
  stop_eq : ∀ s ∈ segments.getLast?, s.stop.eq (lastTime clips duration) = true
  /-- The last time is the duration when no clip starts after it. -/
  lastTime_eq : (∀ c ∈ clips, c.start.le duration = true) →
    (lastTime clips duration).eq duration = true
  differs : segments.IsChain fun s t => s.sameWinners t = false
  plays : ∀ s ∈ segments, PlaysWinners sources clips s
  coarsest : ∀ u : Segment, Number.le 0 u.start = true →
    u.start.lt u.stop = true → u.stop.le (lastTime clips duration) = true →
    (u.IsSteady fun t channel =>
      (topmost? (candidates sources clips t channel)).toList) →
    ∃ s ∈ segments, s.start.le u.start = true ∧ u.stop.le s.stop = true
  length_le : segments.length ≤ 2 * clips.length

theorem place?_foldl_max {x : Number} {p : Place} {ys : List Number}
    (hx : x.place? = some p) (hys : ∀ y ∈ ys, ∃ q, y.place? = some q ∧ q ≤ p) :
    (ys.foldl Number.max x).place? = some p := by
  induction ys generalizing x with
  | nil => exact hx
  | cons y ys ih =>
      obtain ⟨⟨q, hq, hqp⟩, hys⟩ := List.forall_mem_cons.1 hys
      refine ih ?_ hys
      rw [Number.place?_max hx hq, max_eq_left hqp]

/-- No two neighbours inside a range play the same. -/
theorem ExportRange.clip_isChain_differs {r : ExportRange} {p e : Place} (h : r.Spans p e)
    {segments : List Segment} {a b : Place} (htiles : Tiles a b segments)
    (hchain : segments.IsChain fun s t => s.sameWinners t = false) :
    (r.clip segments).IsChain Segment.Differs := by
  refine clip_isChain_of_cut h htiles ?_
    (hchain.imp fun _ _ => Segment.differs_of_sameWinners_eq_false)
  rintro u v q - - - - ⟨channel, hne⟩
  exact ⟨channel, by rwa [run_cut, run_cut]⟩

/-- What is left of the resolved segments inside a range plays the winners. -/
theorem Resolution.playsWinners_clip {sources : Sources} {clips : List Clip}
    {segments : List Segment} {b : Place} (h : Resolution sources clips segments b)
    {r : ExportRange} {p e : Place} (hr : r.Spans p e) :
    ∀ u ∈ r.clip segments, PlaysWinners sources clips u := by
  intro u hu t ht channel
  obtain ⟨s, hs, rfl⟩ := List.mem_map.1 (List.mem_of_mem_filter hu)
  obtain ⟨_, _, hstart, hstop, -⟩ := h.tiles.places_of_mem hs
  rw [ExportRange.run_cut]
  exact (h.resolved s hs).plays t (ExportRange.holds_of_cut hr hstart hstop ht) channel

namespace Resolution

variable {sources : Sources} {clips : List Clip} {segments : List Segment}
  {b : Place} {d : Number}

theorem isBound_lastTime (htimed : ∀ c ∈ clips, c.WellTimed)
    (hd : timelineDuration clips = .ok d) : IsBound clips (lastTime clips d) := by
  rcases List.mem_cons.1 (foldl_max_mem d (clips.map Clip.start)) with h | h
  · obtain ⟨-, -, hmax, -⟩ := timelineDuration_spec htimed hd
    rw [lastTime, h]
    exact hmax.imp_right fun ⟨c, hc, he⟩ => ⟨c, hc, Or.inr he⟩
  · obtain ⟨c, hc, hstart⟩ := List.mem_map.1 h
    exact Or.inr ⟨c, hc, Or.inl hstart.symm⟩

/-- Segments that are resolved end at the last time of the timeline. -/
theorem place?_lastTime (h : Resolution sources clips segments b)
    (htimed : ∀ c ∈ clips, c.WellTimed) (hd : timelineDuration clips = .ok d) :
    (lastTime clips d).place? = some b := by
  have hbound := isBound_lastTime htimed hd
  obtain ⟨q, hq, hqb⟩ := h.bound_le _ hbound
  obtain ⟨-, -, hmax, hends⟩ := timelineDuration_spec htimed hd
  have hdbound : IsBound clips d :=
    hmax.imp_right fun ⟨c, hc, he⟩ => ⟨c, hc, Or.inr he⟩
  have hle : ∀ x ∈ d :: clips.map Clip.start, x.le (lastTime clips d) = true := by
    refine le_foldl_max (List.forall_mem_cons.2 ⟨?_, ?_⟩)
    · obtain ⟨p, hp, -⟩ := hdbound.nonneg htimed
      exact ⟨p, hp⟩
    · intro x hx
      obtain ⟨c, hc, rfl⟩ := List.mem_map.1 hx
      obtain ⟨-, p, -, hp, -⟩ :=
        Number.exists_places_of_le (htimed c hc).start_nonneg
      exact ⟨p, hp⟩
  obtain ⟨x, hx, hxb⟩ := h.bound
  have hxle : x.le (lastTime clips d) = true := by
    rcases hx with rfl | ⟨c, hc, rfl | he⟩
    · obtain ⟨p, hp, hp0⟩ := hbound.nonneg htimed
      exact (Number.le_iff Number.place?_zero hp).2 hp0
    · exact hle c.start (List.mem_cons_of_mem d (List.mem_map_of_mem hc))
    · exact Number.le_trans (hends c hc x he) (hle d List.mem_cons_self)
  rw [Number.le_iff hxb hq] at hxle
  rw [hq, le_antisymm hqb hxle]

theorem lastTime_eq (htimed : ∀ c ∈ clips, c.WellTimed)
    (hd : timelineDuration clips = .ok d)
    (hstarts : ∀ c ∈ clips, c.start.le d = true) :
    (lastTime clips d).eq d = true := by
  obtain ⟨-, -, hmax, -⟩ := timelineDuration_spec htimed hd
  have hdbound : IsBound clips d :=
    hmax.imp_right fun ⟨c, hc, he⟩ => ⟨c, hc, Or.inr he⟩
  obtain ⟨p, hp, -⟩ := hdbound.nonneg htimed
  refine (Number.eq_iff (place?_foldl_max hp ?_) hp).2 rfl
  intro x hx
  obtain ⟨c, hc, rfl⟩ := List.mem_map.1 hx
  obtain ⟨q, p', hq, hp', hqp⟩ := Number.exists_places_of_le (hstarts c hc)
  obtain rfl : p' = p := Option.some.inj (hp'.symm.trans hp)
  exact ⟨q, hq, hqp⟩

/-- A clip keeps the timeline from being empty. -/
theorem zero_lt (h : Resolution sources clips segments b)
    (htimed : ∀ c ∈ clips, c.WellTimed) {c : Clip} (hc : c ∈ clips)
    {e : Number} (he : c.stop = .ok e) : Place.point 0 < b := by
  have hpos : Number.lt 0 e = true :=
    Number.add_pos (htimed c hc).start_nonneg (htimed c hc).duration_pos he
  obtain ⟨q, hq, hqb⟩ := h.stop_le hc he
  exact ((Number.lt_iff Number.place?_zero hq).1 hpos).trans_le hqb

end Resolution

/-- Clips are not placed when one of them has no end. -/
theorem mapM_ofClip_eq_error {clips : List Clip} {f : Fault}
    (h : clips.mapM Clip.stop = .error f) :
    clips.mapM Placed.ofClip = .error f := by
  induction clips with
  | nil => simp [pure, Except.pure] at h
  | cons c rest ih =>
      rw [List.mapM_cons] at h ⊢
      rcases hc : c.stop with e | d
      · rw [hc] at h
        obtain rfl : e = f := Except.error.inj h
        simp only [Placed.ofClip, hc]
        rfl
      · rcases hrest : rest.mapM Clip.stop with e | stops
        · rw [hc, hrest] at h
          simp only [Placed.ofClip, hc, ih (hrest.trans h)]
          rfl
        · simp [hc, hrest, bind, Except.bind, pure, Except.pure] at h

/-- A timeline without a duration has no segments either: the end of a clip is
beyond the range of binary64. -/
theorem resolve_eq_error (sources : Sources) {clips : List Clip} {f : Fault}
    (h : timelineDuration clips = .error f) :
    f = .integerTooLarge ∧ resolve sources clips = .error f := by
  rcases hstops : clips.mapM Clip.stop with e | stops
  · rw [timelineDuration, hstops] at h
    obtain rfl : e = f := Except.error.inj h
    have hfault : OnlyTooLarge (clips.mapM Clip.stop) :=
      .mapM (f := Clip.stop) (fun c => .add c.start c.duration) clips
    refine ⟨hfault e hstops, ?_⟩
    rw [resolve, mapM_ofClip_eq_error hstops]
    rfl
  · obtain ⟨d, hd⟩ := exists_timelineDuration hstops
    simp [hd] at h

/-- The resolved segments of some clips are their canonical tiling, as long as
the end of every clip is known. -/
theorem exists_canonicalTiling (sources : Sources) {clips : List Clip}
    {d : Number} (hne : clips ≠ []) (hids : (clips.map Clip.id).Nodup)
    (htimed : ∀ c ∈ clips, c.WellTimed) (hd : timelineDuration clips = .ok d) :
    ∃ segments, resolve sources clips = .ok segments ∧
      CanonicalTiling sources clips d segments := by
  obtain ⟨stops, hstops, -⟩ := timelineDuration_spec htimed hd
  obtain ⟨segments, b, hresolve, hres⟩ :=
    exists_resolution sources hids htimed hstops
  have hlast := hres.place?_lastTime htimed hd
  have hdiffers := resolve_isChain hresolve
  have hplays : ∀ s ∈ segments, PlaysWinners sources clips s :=
    fun s hs => (hres.resolved s hs).plays
  refine ⟨segments, hresolve, ?_⟩
  constructor
  case ne_nil =>
    obtain ⟨c, hc⟩ := List.exists_mem_of_ne_nil clips hne
    obtain ⟨placed, -, hplaces, -⟩ := exists_placed hstops
    obtain ⟨p, hp, rfl⟩ := List.mem_map.1 (hplaces.clips_eq ▸ hc)
    have hpos := hres.zero_lt htimed (hplaces.mem_clips hp) (hplaces.stop_eq p hp)
    rintro rfl
    obtain rfl : Place.point 0 = b := hres.tiles
    exact lt_irrefl _ hpos
  case start_eq =>
    intro s hs
    cases segments with
    | nil => simp at hs
    | cons t rest =>
        obtain rfl : t = s := Option.some.inj hs
        exact (Number.eq_iff hres.tiles.1 Number.place?_zero).2 rfl
  case lasts =>
    intro s hs
    obtain ⟨p, e, hp, he, -, hpe, -⟩ := hres.tiles.places_of_mem hs
    exact (Number.lt_iff hp he).2 hpe
  case meets =>
    refine hres.tiles.isChain.imp_of_mem_imp ?_
    intro s t hs ht hplace
    obtain ⟨p, e, -, he, -⟩ := hres.tiles.places_of_mem hs
    exact (Number.eq_iff he (hplace ▸ he)).2 rfl
  case stop_eq =>
    intro s hs
    exact (Number.eq_iff (hres.tiles.place?_getLast hs) hlast).2 rfl
  case lastTime_eq => exact Resolution.lastTime_eq htimed hd
  case differs => exact hdiffers
  case plays => exact hplays
  case coarsest =>
    intro u hu0 hlt hle hsteady
    obtain ⟨z, q, hz, hq, h0q⟩ := Number.exists_places_of_le hu0
    obtain rfl : Place.point 0 = z :=
      Option.some.inj (Number.place?_zero.symm.trans hz)
    obtain ⟨q', r, hq', hr, hqr⟩ := Number.exists_places_of_lt hlt
    obtain rfl : q = q' := Option.some.inj (hq.symm.trans hq')
    rw [Number.le_iff hr hlast] at hle
    exact hres.tiles.exists_covering le_rfl hplays
      (hdiffers.imp fun _ _ => Segment.differs_of_sameWinners_eq_false)
      hq hr h0q hqr hle hsteady
  case length_le =>
    obtain ⟨placed, hlength, rfl⟩ := resolve_eq_collapse hresolve
    rw [← hlength]
    exact (length_collapse_le _).trans (length_walk_le sources placed)

/-- A timeline of clips is resolved to its canonical tiling, or has no segments
because it has no duration. -/
theorem resolve_canonicalTiling (sources : Sources) {clips : List Clip}
    (hne : clips ≠ []) (hids : (clips.map Clip.id).Nodup)
    (htimed : ∀ c ∈ clips, c.WellTimed) :
    (∀ d, timelineDuration clips = .ok d →
      ∃ segments, resolve sources clips = .ok segments ∧
        CanonicalTiling sources clips d segments) ∧
    ∀ f, timelineDuration clips = .error f →
      f = .integerTooLarge ∧ resolve sources clips = .error f :=
  ⟨fun _ hd => exists_canonicalTiling sources hne hids htimed hd,
    fun _ hf => resolve_eq_error sources hf⟩

/-- A film with a song over a part of it, and a spare clip under the film. -/
def scoredFilm : List Clip :=
  [{ id := "film", mediaId := "film", track := 1, start := 0, duration := 3000 },
    { id := "song", mediaId := "song", track := 0, start := 1000
      duration := .float (Binary64.ofInt 1000) },
    { id := "spare", mediaId := "film", track := 2, start := 500
      duration := 2000 }]

theorem canonicalTiling_of_scoredFilm :
    scoredFilm ≠ [] ∧ (scoredFilm.map Clip.id).Nodup ∧
      (∀ c ∈ scoredFilm, c.WellTimed) ∧ timelineDuration scoredFilm = .ok 3000 ∧
      (∀ c ∈ scoredFilm, c.start.le 3000 = true) ∧
      ∃ segments, resolve songAndFilm scoredFilm = .ok segments ∧
        CanonicalTiling songAndFilm scoredFilm 3000 segments := by
  have hne : scoredFilm ≠ [] := List.cons_ne_nil _ _
  have hids : (scoredFilm.map Clip.id).Nodup := by decide
  have htimed : ∀ c ∈ scoredFilm, c.WellTimed := by
    simp only [scoredFilm, List.forall_mem_cons, List.not_mem_nil,
      false_implies, implies_true, and_true]
    exact ⟨⟨by decide +kernel, by decide +kernel⟩,
      ⟨by decide +kernel, by decide +kernel⟩,
      ⟨by decide +kernel, by decide +kernel⟩⟩
  have hd : timelineDuration scoredFilm = .ok 3000 := by decide +kernel
  refine ⟨hne, hids, htimed, hd, by decide +kernel, ?_⟩
  exact (resolve_canonicalTiling songAndFilm hne hids htimed).1 3000 hd

/-- A clip that starts where binary64 skips whole numbers, and is too short to
get from the value below its start to the one above. -/
def lateClip : Clip where
  id := "late"
  mediaId := "film"
  track := 0
  start := 9007199254740993
  duration := .float (Binary64.ofRatio false unitsInOne 4)

/-- A clip that starts beyond the range of binary64, for half a millisecond. -/
def farClip : Clip where
  id := "far"
  mediaId := "film"
  track := 0
  start := .int (10 ^ 400)
  duration := .float (Binary64.ofRatio false unitsInOne 2)

/-- The end of the late clip is rounded to before its start, so the segments
do not end with the timeline; the far clip has no end, so there are none. -/
theorem resolve_lateClip_farClip :
    (([lateClip].map Clip.id).Nodup ∧ lateClip.WellTimed ∧
      ∃ d segments last, timelineDuration [lateClip] = .ok d ∧
        resolve {} [lateClip] = .ok segments ∧
        segments.getLast? = some last ∧ last.stop.eq d = false) ∧
    ([farClip].map Clip.id).Nodup ∧ farClip.WellTimed ∧
      resolve {} [farClip] = .error .integerTooLarge := by
  have hd : timelineDuration [lateClip] =
      .ok (.float (Binary64.ofInt 9007199254740992)) := by decide +kernel
  have hstops : (resolve {} [lateClip]).map (·.map Segment.stop) =
      .ok [9007199254740993] := by decide +kernel
  have hfar : farClip.stop = .error .integerTooLarge := by decide +kernel
  refine ⟨⟨by decide, ⟨by decide +kernel, by decide +kernel⟩, ?_⟩,
    by decide, ⟨by decide +kernel, by decide +kernel⟩, ?_⟩
  · rcases hresolve : resolve {} [lateClip] with f | segments
    · simp [hresolve, Except.map] at hstops
    · rw [hresolve] at hstops
      obtain ⟨last, hlast, hstop⟩ :=
        List.map_eq_singleton_iff.1 (Except.ok.inj hstops)
      refine ⟨_, segments, last, hd, rfl, by rw [hlast]; rfl, ?_⟩
      rw [hstop]
      decide +kernel
  · simp only [resolve, List.mapM_cons, Placed.ofClip, hfar]
    rfl

end Montage
