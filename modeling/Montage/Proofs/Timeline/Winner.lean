import Mathlib.Data.List.Nodup
import Montage.Proofs.Number.Rounding
import Montage.Proofs.Timeline.Boundary
import Montage.Proofs.Timeline.Tiling

/-!
The winners of the resolved segments.

Boundaries are sorted and hold all times of the clips, so no clip starts or ends strictly between
two neighbours of them.  The winners at a boundary are therefore those of every instant up to the
next one, and putting neighbours of the same winners together keeps this.
-/

namespace Montage

/-- A clip that does not begin before the timeline and has a length. -/
structure Clip.WellTimed (c : Clip) : Prop where
  start_nonneg : Number.le 0 c.start = true
  duration_pos : Number.lt 0 c.duration = true

theorem Clip.WellTimed.stop_nonneg {c : Clip} {e : Number}
    (h : c.WellTimed) (he : c.stop = .ok e) : Number.le 0 e = true :=
  Number.add_nonneg h.start_nonneg (Number.le_of_lt h.duration_pos) he

/-- The clips with the times at which they end. -/
structure Places (clips : List Clip) (placed : List Placed) : Prop where
  clips_eq : placed.map Placed.clip = clips
  stop_eq : ∀ p ∈ placed, p.clip.stop = .ok p.stop

/-- When the end of every clip is known, the clips can be placed. -/
theorem exists_placed {clips : List Clip} {stops : List Number}
    (h : clips.mapM Clip.stop = .ok stops) :
    ∃ placed, clips.mapM Placed.ofClip = .ok placed ∧ Places clips placed ∧
      placed.map Placed.stop = stops := by
  induction clips generalizing stops with
  | nil =>
      obtain rfl : [] = stops := Except.ok.inj h
      exact ⟨[], rfl, ⟨rfl, by simp⟩, rfl⟩
  | cons c rest ih =>
      simp only [List.mapM_cons, bind_eq_ok] at h
      obtain ⟨e, he, es, hes, h⟩ := h
      obtain rfl : e :: es = stops := Except.ok.inj h
      obtain ⟨placed, hplaced, hplaces, hstops⟩ := ih hes
      refine ⟨⟨c, e⟩ :: placed, ?_, ⟨?_, ?_⟩, ?_⟩
      · simp [List.mapM_cons, Placed.ofClip, he, hplaced, bind, Except.bind,
          pure, Except.pure]
      · rw [List.map_cons, hplaces.clips_eq]
      · exact List.forall_mem_cons.2 ⟨he, hplaces.stop_eq⟩
      · rw [List.map_cons, hstops]

theorem Places.mem_clips {clips : List Clip} {placed : List Placed}
    (h : Places clips placed) {p : Placed} (hp : p ∈ placed) :
    p.clip ∈ clips := by
  rw [← h.clips_eq]
  exact List.mem_map_of_mem hp

/-- The known ends are just those of the clips. -/
theorem Places.mem_stops {clips : List Clip} {placed : List Placed}
    (h : Places clips placed) {e : Number} :
    e ∈ placed.map Placed.stop ↔ ∃ c ∈ clips, c.stop = .ok e := by
  rw [← h.clips_eq]
  constructor
  · intro he
    obtain ⟨p, hp, rfl⟩ := List.mem_map.1 he
    exact ⟨p.clip, List.mem_map_of_mem hp, h.stop_eq p hp⟩
  · rintro ⟨c, hc, he⟩
    obtain ⟨p, hp, rfl⟩ := List.mem_map.1 hc
    rw [h.stop_eq p hp] at he
    exact Except.ok.inj he ▸ List.mem_map_of_mem hp

/-- Up to the next boundary a clip plays just when it plays at this one. -/
theorem playsAt_eq_isOn {p : Placed} {start : Number} {a e q r : Place}
    {t : Instant} (hstop : p.clip.stop = .ok p.stop)
    (ha : start.place? = some a) (hq : p.clip.start.place? = some q)
    (hr : p.stop.place? = some r) (hqa : q ≤ a ∨ e ≤ q) (hra : r ≤ a ∨ e ≤ r)
    (hat : a ≤ Place.ofInstant t) (hte : Place.ofInstant t < e) :
    p.playsAt start = p.clip.isOn t := by
  rw [Bool.eq_iff_iff, Placed.playsAt, Clip.isOn, hstop, Bool.and_eq_true,
    Bool.and_eq_true, Number.le_iff hq ha, Number.lt_iff ha hr,
    Number.reachedAt_iff hq, Number.isAfter_iff hr]
  constructor
  · rintro ⟨hstart, hend⟩
    refine ⟨hstart.trans hat, ?_⟩
    rcases hra with hra | hra
    · exact absurd hend (not_lt.2 hra)
    · exact hte.trans_le hra
  · rintro ⟨hstart, hend⟩
    refine ⟨?_, hat.trans_lt hend⟩
    rcases hqa with hqa | hqa
    · exact hqa
    · exact absurd (hqa.trans hstart) (not_le.2 hte)

/-- On each channel a segment plays just the winner of each of its
instants. -/
def PlaysWinners (sources : Sources) (clips : List Clip) (s : Segment) : Prop :=
  ∀ t, s.holds t = true → ∀ channel,
    s.run channel = (topmost? (candidates sources clips t channel)).toList

/-- A time at which a timeline of clips may have a boundary. -/
def IsBound (clips : List Clip) (x : Number) : Prop :=
  x = 0 ∨ ∃ c ∈ clips, x = c.start ∨ c.stop = .ok x

theorem IsBound.nonneg {clips : List Clip} {x : Number}
    (h : IsBound clips x) (htimed : ∀ c ∈ clips, c.WellTimed) :
    ∃ q, x.place? = some q ∧ Place.point 0 ≤ q := by
  have hle : Number.le 0 x = true := by
    rcases h with rfl | ⟨c, hc, rfl | he⟩
    · exact (Number.le_iff Number.place?_zero Number.place?_zero).2 le_rfl
    · exact (htimed c hc).start_nonneg
    · exact (htimed c hc).stop_nonneg he
  obtain ⟨p, q, hp, hq, hpq⟩ := Number.exists_places_of_le hle
  obtain rfl : Place.point 0 = p :=
    Option.some.inj (Number.place?_zero.symm.trans hp)
  exact ⟨q, hq, hpq⟩

/-- A segment as the timeline of some clips resolves to. -/
structure Resolved (sources : Sources) (clips : List Clip) (s : Segment) : Prop
    where
  plays : PlaysWinners sources clips s
  single : ∀ channel, ∃ w : Option Clip,
    s.run channel = w.toList ∧ ∀ c ∈ w, c ∈ clips
  start_bound : IsBound clips s.start
  stop_bound : IsBound clips s.stop

theorem Places.isBound_of_mem_times {clips : List Clip}
    {placed : List Placed} (h : Places clips placed) {x : Number}
    (hx : x ∈ times placed) : IsBound clips x := by
  obtain ⟨p, hp, hx⟩ := List.mem_flatMap.1 hx
  refine Or.inr ⟨p.clip, h.mem_clips hp, ?_⟩
  rcases List.mem_pair.1 hx with rfl | rfl
  · exact Or.inl rfl
  · exact Or.inr (h.stop_eq p hp)

theorem Places.mem_times {clips : List Clip} {placed : List Placed}
    (h : Places clips placed) {c : Clip} (hc : c ∈ clips) {x : Number}
    (hx : x = c.start ∨ c.stop = .ok x) : x ∈ times placed := by
  rw [← h.clips_eq] at hc
  obtain ⟨p, hp, rfl⟩ := List.mem_map.1 hc
  refine List.mem_flatMap.2 ⟨p, hp, List.mem_pair.2 ?_⟩
  rw [h.stop_eq p hp] at hx
  exact hx.imp_right fun he => (Except.ok.inj he).symm

theorem Places.isBound {clips : List Clip} {placed : List Placed}
    (h : Places clips placed) {x : Number} (hx : x ∈ boundaries placed) :
    IsBound clips x := by
  rw [boundaries_eq_addTimes] at hx
  rcases mem_of_mem_addTimes hx with hx | hx
  · exact Or.inl (List.mem_singleton.1 hx)
  · exact h.isBound_of_mem_times hx

/-- Between neighbouring boundaries, the clips that play at the first play
throughout. -/
theorem activeAt_eq_filter {clips : List Clip} {placed : List Placed}
    (h : Places clips placed) {start : Number} {a e : Place} {t : Instant}
    (ha : start.place? = some a)
    (hgap : ∀ x ∈ times placed, ∃ q, x.place? = some q ∧ (q ≤ a ∨ e ≤ q))
    (hat : a ≤ Place.ofInstant t) (hte : Place.ofInstant t < e) :
    activeAt placed start = clips.filter fun c => c.isOn t := by
  rw [activeAt, ← h.clips_eq, List.filter_map]
  congr 1
  refine List.filter_congr ?_
  intro p hp
  obtain ⟨q, hq, hqa⟩ := hgap p.clip.start
    (List.mem_flatMap.2 ⟨p, hp, by simp⟩)
  obtain ⟨r, hr, hra⟩ := hgap p.stop (List.mem_flatMap.2 ⟨p, hp, by simp⟩)
  exact playsAt_eq_isOn (h.stop_eq p hp) ha hq hr hqa hra hat hte

theorem segmentAt_playsWinners {sources : Sources} {clips : List Clip}
    {placed : List Placed} (h : Places clips placed) {start stop : Number}
    {a e : Place} (ha : start.place? = some a) (he : stop.place? = some e)
    (hgap : ∀ x ∈ times placed, ∃ q, x.place? = some q ∧ (q ≤ a ∨ e ≤ q)) :
    PlaysWinners sources clips (segmentAt sources placed start stop) := by
  intro t ht channel
  have hbounds := (Segment.holds_iff
    (s := segmentAt sources placed start stop) ha he).1 ht
  have hactive := activeAt_eq_filter h ha hgap hbounds.1 hbounds.2
  cases channel with
  | audio =>
      simp only [Segment.run, segmentAt, audioWinner?, candidates, hactive]
  | video =>
      simp only [Segment.run, segmentAt, videoWinner?, candidates, hactive,
        List.filter_filter, Bool.and_comm]

theorem segmentAt_single {sources : Sources} {clips : List Clip}
    {placed : List Placed} (h : Places clips placed) (start stop : Number)
    (channel : Channel) :
    ∃ w : Option Clip, (segmentAt sources placed start stop).run channel =
      w.toList ∧ ∀ c ∈ w, c ∈ clips := by
  have hactive : ∀ c ∈ activeAt placed start, c ∈ clips := by
    intro c hc
    obtain ⟨p, hp, rfl⟩ := List.mem_map.1 hc
    exact h.mem_clips (List.mem_of_mem_filter hp)
  cases channel with
  | audio =>
      refine ⟨_, rfl, ?_⟩
      intro c hc
      exact hactive c (mem_of_topmost?_eq_some hc)
  | video =>
      refine ⟨_, rfl, ?_⟩
      intro c hc
      exact hactive c (List.mem_of_mem_filter (mem_of_topmost?_eq_some hc))

/-- The segments between boundaries tile the way from the first of them to
the last, if no time of a clip is missed. -/
theorem segmentsBetween_spec (sources : Sources) {clips : List Clip}
    {placed : List Placed} (h : Places clips placed) {first : Number}
    {rest : List Number} (hasc : Ascending (first :: rest))
    (hbound : ∀ x ∈ first :: rest, IsBound clips x) {a : Place}
    (ha : first.place? = some a)
    (hcover : ∀ x ∈ times placed,
      ∃ q, x.place? = some q ∧ (q ≤ a ∨ ∃ y ∈ rest, y.place? = some q)) :
    ∃ b, Tiles a b (segmentsBetween sources placed (first :: rest)) ∧
      (∀ s ∈ segmentsBetween sources placed (first :: rest),
        Resolved sources clips s) ∧
      (∀ x ∈ first :: rest, ∃ q, x.place? = some q ∧ q ≤ b) ∧
      ∃ x ∈ first :: rest, x.place? = some b := by
  induction rest generalizing first a with
  | nil =>
      refine ⟨a, rfl, by simp [segmentsBetween], ?_, first, by simp, ha⟩
      intro x hx
      rw [List.mem_singleton.1 hx]
      exact ⟨a, ha, le_rfl⟩
  | cons stop rest ih =>
      obtain ⟨hplaced, hsorted⟩ := hasc
      rw [List.pairwise_cons] at hsorted
      obtain ⟨e, he⟩ := Number.exists_place (hplaced stop (by simp))
      have hae : a < e := (Number.lt_iff ha he).1 (hsorted.1 stop (by simp))
      have hstop : stop.le first = false := by
        rw [← Bool.not_eq_true, Number.le_iff he ha, not_le]
        exact hae
      -- a time that lies at a later boundary does not lie before the next one
      have hlater : ∀ y ∈ stop :: rest, ∀ q, y.place? = some q → e ≤ q := by
        intro y hy q hq
        rcases List.mem_cons.1 hy with rfl | hy
        · exact le_of_eq (Option.some.inj (he.symm.trans hq))
        · exact ((Number.lt_iff he hq).1
            ((List.pairwise_cons.1 hsorted.2).1 y hy)).le
      have hgap : ∀ x ∈ times placed,
          ∃ q, x.place? = some q ∧ (q ≤ a ∨ e ≤ q) := by
        intro x hx
        obtain ⟨q, hq, hqa | ⟨y, hy, hyq⟩⟩ := hcover x hx
        · exact ⟨q, hq, Or.inl hqa⟩
        · exact ⟨q, hq, Or.inr (hlater y hy q hyq)⟩
      have hcover' : ∀ x ∈ times placed,
          ∃ q, x.place? = some q ∧ (q ≤ e ∨ ∃ y ∈ rest, y.place? = some q) := by
        intro x hx
        obtain ⟨q, hq, hqa | ⟨y, hy, hyq⟩⟩ := hcover x hx
        · exact ⟨q, hq, Or.inl (hqa.trans hae.le)⟩
        · rcases List.mem_cons.1 hy with rfl | hy
          · exact ⟨q, hq, Or.inl (le_of_eq (Option.some.inj (hyq.symm.trans he)))⟩
          · exact ⟨q, hq, Or.inr ⟨y, hy, hyq⟩⟩
      obtain ⟨b, htiles, hres, hends, x, hx, hxb⟩ := ih
        ⟨fun x hx => hplaced x (List.mem_cons_of_mem first hx), hsorted.2⟩
        (fun x hx => hbound x (List.mem_cons_of_mem first hx)) he hcover'
      simp only [segmentsBetween, hstop, Bool.false_eq_true, ↓reduceIte]
      refine ⟨b, ⟨ha, e, he, hae, htiles⟩, ?_, ?_, x,
        List.mem_cons_of_mem first hx, hxb⟩
      · refine List.forall_mem_cons.2 ⟨⟨?_, ?_, ?_, ?_⟩, hres⟩
        · exact segmentAt_playsWinners h ha he hgap
        · exact segmentAt_single h first stop
        · exact hbound first (by simp)
        · exact hbound stop (by simp)
      · refine List.forall_mem_cons.2 ⟨⟨a, ha, ?_⟩, hends⟩
        exact hae.le.trans htiles.le

/-- Clips of one id are one clip. -/
def Coherent (clips : List Clip) : Prop :=
  ∀ c ∈ clips, ∀ d ∈ clips, c.id = d.id → c = d

theorem coherent_of_nodup {clips : List Clip}
    (h : (clips.map Clip.id).Nodup) : Coherent clips :=
  fun _ hc _ hd heq => List.inj_on_of_nodup_map h hc hd heq

theorem Coherent.mono {clips clips' : List Clip} (h : Coherent clips')
    (hsub : clips ⊆ clips') : Coherent clips :=
  fun c hc d hd heq => h c (hsub hc) d (hsub hd) heq

/-- Of two segments with at most one clip on each channel, the same winners
mean the same runs. -/
theorem run_eq_of_sameWinners {clips : List Clip} {s t : Segment}
    (hclips : Coherent clips) {channel : Channel}
    (hs : ∃ w : Option Clip, s.run channel = w.toList ∧ ∀ c ∈ w, c ∈ clips)
    (ht : ∃ w : Option Clip, t.run channel = w.toList ∧ ∀ c ∈ w, c ∈ clips)
    (h : s.sameWinners t = true) : s.run channel = t.run channel := by
  have hid : (s.winner? channel).map Clip.id = (t.winner? channel).map Clip.id := by
    simp only [Segment.sameWinners, Bool.and_eq_true, beq_iff_eq] at h
    cases channel
    · exact h.1
    · exact h.2
  obtain ⟨w, hw, hwmem⟩ := hs
  obtain ⟨w', hw', hwmem'⟩ := ht
  simp only [Segment.winner?, hw, hw', Option.head?_toList] at hid
  rw [hw, hw']
  rcases w with _ | c <;> rcases w' with _ | d
  · rfl
  · simp at hid
  · simp at hid
  · rw [hclips c (hwmem c rfl) d (hwmem' d rfl) (Option.some.inj hid)]

/-- Two neighbours of the same winners together play the winners of both. -/
theorem resolved_extend {sources : Sources} {clips : List Clip}
    {s t : Segment} (hclips : Coherent clips) {a e b : Place}
    (hs : Resolved sources clips s) (ht : Resolved sources clips t)
    (ha : s.start.place? = some a) (he : s.stop.place? = some e)
    (he' : t.start.place? = some e) (hb : t.stop.place? = some b)
    (hsame : s.sameWinners t = true) :
    Resolved sources clips { s with stop := t.stop } := by
  refine ⟨?_, hs.single, hs.start_bound, ht.stop_bound⟩
  intro u hu channel
  have hbounds := (Segment.holds_iff
    (s := { s with stop := t.stop }) ha hb).1 hu
  rcases lt_or_ge (Place.ofInstant u) e with hlt | hge
  · exact hs.plays u ((Segment.holds_iff ha he).2 ⟨hbounds.1, hlt⟩) channel
  · rw [← ht.plays u ((Segment.holds_iff he' hb).2 ⟨hge, hbounds.2⟩) channel]
    exact run_eq_of_sameWinners hclips (hs.single channel) (ht.single channel)
      hsame

/-- Putting neighbours together keeps the tiling and its winners. -/
theorem collapseFrom_spec {sources : Sources} {clips : List Clip}
    (hclips : Coherent clips) {current : Segment} {rest : List Segment}
    {a b : Place} (htiles : Tiles a b (current :: rest))
    (hres : ∀ s ∈ current :: rest, Resolved sources clips s) :
    Tiles a b (collapseFrom current rest) ∧
      ∀ s ∈ collapseFrom current rest, Resolved sources clips s := by
  induction rest generalizing current a with
  | nil => exact ⟨htiles, hres⟩
  | cons s rest ih =>
      obtain ⟨ha, e, he, hae, he', e', hstop, hlt, hrest⟩ := htiles
      have hcurrent := hres current (by simp)
      have hs := hres s (by simp)
      have htail : ∀ u ∈ rest, Resolved sources clips u := by
        intro u hu
        exact hres u (by simp [hu])
      simp only [collapseFrom]
      split
      · next hsame =>
          have hjoined := resolved_extend hclips hcurrent hs ha he he' hstop hsame
          exact ih ⟨ha, e', hstop, hae.trans hlt, hrest⟩
            (List.forall_mem_cons.2 ⟨hjoined, htail⟩)
      · obtain ⟨htiles', hres'⟩ := ih ⟨he', e', hstop, hlt, hrest⟩
          (List.forall_mem_cons.2 ⟨hs, htail⟩)
        exact ⟨⟨ha, e, he, hae, htiles'⟩,
          List.forall_mem_cons.2 ⟨hcurrent, hres'⟩⟩

theorem collapse_spec {sources : Sources} {clips : List Clip}
    (hclips : Coherent clips) {segments : List Segment} {a b : Place}
    (htiles : Tiles a b segments)
    (hres : ∀ s ∈ segments, Resolved sources clips s) :
    Tiles a b (collapse segments) ∧
      ∀ s ∈ collapse segments, Resolved sources clips s := by
  cases segments with
  | nil => exact ⟨htiles, by simp [collapse]⟩
  | cons s rest => exact collapseFrom_spec hclips htiles hres

/-- What the resolved segments of a timeline are: a tiling of the way from
zero to its last time, by segments that play the winners. -/
structure Resolution (sources : Sources) (clips : List Clip)
    (segments : List Segment) (b : Place) : Prop where
  tiles : Tiles (.point 0) b segments
  resolved : ∀ s ∈ segments, Resolved sources clips s
  bound_le : ∀ x, IsBound clips x → ∃ q, x.place? = some q ∧ q ≤ b
  bound : ∃ x, IsBound clips x ∧ x.place? = some b

theorem Resolution.stop_le {sources : Sources} {clips : List Clip}
    {segments : List Segment} {b : Place}
    (h : Resolution sources clips segments b) {c : Clip} (hc : c ∈ clips)
    {e : Number} (he : c.stop = .ok e) : ∃ q, e.place? = some q ∧ q ≤ b :=
  h.bound_le e (Or.inr ⟨c, hc, Or.inr he⟩)

/-- The boundaries of placed clips tile the timeline from zero on. -/
theorem walk_spec (sources : Sources) {clips : List Clip}
    {placed : List Placed} (h : Places clips placed)
    (htimed : ∀ c ∈ clips, c.WellTimed) :
    ∃ b, Resolution sources clips (walk sources placed) b := by
  cases placed with
  | nil =>
      obtain rfl : [] = clips := h.clips_eq
      refine ⟨.point 0, rfl, by simp [walk], ?_, 0, Or.inl rfl,
        Number.place?_zero⟩
      rintro x (rfl | ⟨c, hc, -⟩)
      · exact ⟨_, Number.place?_zero, le_rfl⟩
      · exact absurd hc List.not_mem_nil
  | cons p ps =>
      have hnan : ∀ x ∈ times (p :: ps), x.isNaN = false := by
        intro x hx
        obtain ⟨q, hq, -⟩ := (h.isBound_of_mem_times hx).nonneg htimed
        exact Number.isNaN_eq_false hq
      have hasc := boundaries_ascending hnan
      have hzero : (0 : Number) ∈ boundaries (p :: ps) :=
        mem_addTimes_of_mem (p :: ps) (List.mem_singleton.2 rfl)
      have hcover : ∀ x ∈ times (p :: ps),
          ∃ y ∈ boundaries (p :: ps), y.place? = x.place? :=
        fun x hx => exists_place_mem_addTimes hx
      have hbound := fun x (hx : x ∈ boundaries (p :: ps)) => h.isBound hx
      simp only [walk, List.isEmpty_cons, Bool.false_eq_true, ↓reduceIte]
      generalize boundaries (p :: ps) = bounds at hasc hzero hcover hbound
      cases bounds with
      | nil => simp at hzero
      | cons first rest =>
          obtain ⟨a, ha, ha0⟩ := (hbound first (by simp)).nonneg htimed
          -- zero is a boundary and none is before it
          obtain rfl : a = .point 0 := by
            refine le_antisymm ?_ ha0
            rcases List.mem_cons.1 hzero with rfl | hz
            · exact le_of_eq (Option.some.inj (ha.symm.trans Number.place?_zero))
            · exact ((Number.lt_iff ha Number.place?_zero).1
                ((List.pairwise_cons.1 hasc.sorted).1 0 hz)).le
          obtain ⟨b, htiles, hres, hends, x, hx, hxb⟩ :=
            segmentsBetween_spec sources h hasc hbound ha (by
              intro x hx
              obtain ⟨y, hy, hyx⟩ := hcover x hx
              obtain ⟨q, hq, -⟩ := (hbound y hy).nonneg htimed
              refine ⟨q, hyx ▸ hq, ?_⟩
              rcases List.mem_cons.1 hy with rfl | hy
              · exact Or.inl (le_of_eq (Option.some.inj (hq.symm.trans ha)))
              · exact Or.inr ⟨y, hy, hq⟩)
          refine ⟨b, htiles, hres, ?_, x, hbound x hx, hxb⟩
          rintro x (rfl | ⟨c, hc, hx⟩)
          · exact hends 0 hzero
          · obtain ⟨y, hy, hyx⟩ := hcover x (h.mem_times hc hx)
            obtain ⟨q, hq, hqb⟩ := hends y hy
            exact ⟨q, hyx ▸ hq, hqb⟩

/-- The segments of a timeline whose clips all end are resolved. -/
theorem exists_resolution (sources : Sources) {clips : List Clip}
    {stops : List Number} (hids : (clips.map Clip.id).Nodup)
    (htimed : ∀ c ∈ clips, c.WellTimed)
    (hstops : clips.mapM Clip.stop = .ok stops) :
    ∃ segments b, resolve sources clips = .ok segments ∧
      Resolution sources clips segments b := by
  obtain ⟨placed, hplaced, hplaces, -⟩ := exists_placed hstops
  obtain ⟨b, hwalk⟩ := walk_spec sources hplaces htimed
  obtain ⟨htiles, hres⟩ := collapse_spec (coherent_of_nodup hids) hwalk.tiles
    hwalk.resolved
  refine ⟨collapse (walk sources placed), b, ?_, htiles, hres, hwalk.bound_le,
    hwalk.bound⟩
  simp only [resolve, hplaced, bind, Except.bind, pure, Except.pure]

theorem foldl_max_mem (first : Number) (rest : List Number) :
    rest.foldl Number.max first ∈ first :: rest := by
  induction rest generalizing first with
  | nil => simp
  | cons x rest ih =>
      rw [List.foldl_cons]
      have hmax : first.max x = first ∨ first.max x = x := by
        unfold Number.max
        split
        · exact Or.inr rfl
        · exact Or.inl rfl
      rcases List.mem_cons.1 (ih (first.max x)) with heq | hmem
      · rw [heq]
        rcases hmax with h | h <;> simp [h]
      · exact List.mem_cons_of_mem first (List.mem_cons_of_mem x hmem)

theorem le_foldl_max {first : Number} {rest : List Number}
    (hplaced : ∀ x ∈ first :: rest, ∃ p, x.place? = some p) :
    ∀ x ∈ first :: rest, x.le (rest.foldl Number.max first) = true := by
  induction rest generalizing first with
  | nil =>
      obtain ⟨p, hp⟩ := hplaced first (by simp)
      simpa using (Number.le_iff hp hp).2 le_rfl
  | cons y rest ih =>
      obtain ⟨p, hp⟩ := hplaced first (by simp)
      obtain ⟨q, hq⟩ := hplaced y (by simp)
      have hmax := Number.place?_max hp hq
      have hrest : ∀ x ∈ first.max y :: rest, ∃ p, x.place? = some p :=
        List.forall_mem_cons.2 ⟨⟨_, hmax⟩, fun x hx => hplaced x (by simp [hx])⟩
      have hle := ih hrest
      obtain ⟨m, r, hm, hr, hmr⟩ :=
        Number.exists_places_of_le (hle (first.max y) (by simp))
      obtain rfl : Max.max p q = m := Option.some.inj (hmax.symm.trans hm)
      intro x hx
      rw [List.foldl_cons]
      rcases List.mem_cons.1 hx with rfl | hx
      · exact (Number.le_iff hp hr).2 ((le_max_left p q).trans hmr)
      · rcases List.mem_cons.1 hx with rfl | hx
        · exact (Number.le_iff hq hr).2 ((le_max_right p q).trans hmr)
        · exact hle x (List.mem_cons_of_mem _ hx)

theorem exists_timelineDuration {clips : List Clip} {stops : List Number}
    (h : clips.mapM Clip.stop = .ok stops) :
    ∃ d, timelineDuration clips = .ok d := by
  simp only [timelineDuration, h, bind, Except.bind]
  cases stops <;> exact ⟨_, rfl⟩

/-- The duration of a timeline is the greatest end of a clip, or zero. -/
theorem timelineDuration_spec {clips : List Clip} {d : Number}
    (htimed : ∀ c ∈ clips, c.WellTimed) (h : timelineDuration clips = .ok d) :
    ∃ stops, clips.mapM Clip.stop = .ok stops ∧
      (d = 0 ∨ ∃ c ∈ clips, c.stop = .ok d) ∧
      ∀ c ∈ clips, ∀ e, c.stop = .ok e → e.le d = true := by
  simp only [timelineDuration, bind_eq_ok] at h
  obtain ⟨stops, hstops, h⟩ := h
  obtain ⟨placed, -, hplaces, rfl⟩ := exists_placed hstops
  refine ⟨_, hstops, ?_⟩
  have hmem := fun e => hplaces.mem_stops (e := e)
  generalize placed.map Placed.stop = stops at h hmem
  cases stops with
  | nil =>
      refine ⟨Or.inl (Except.ok.inj h).symm, ?_⟩
      intro c hc e he
      exact absurd ((hmem e).2 ⟨c, hc, he⟩) List.not_mem_nil
  | cons first rest =>
      obtain rfl : rest.foldl Number.max first = d := Except.ok.inj h
      refine ⟨Or.inr ((hmem _).1 (foldl_max_mem first rest)), ?_⟩
      intro c hc e he
      refine le_foldl_max ?_ e ((hmem e).2 ⟨c, hc, he⟩)
      intro x hx
      obtain ⟨c', hc', hx'⟩ := (hmem x).1 hx
      obtain ⟨p, q, -, hq, -⟩ :=
        Number.exists_places_of_le ((htimed c' hc').stop_nonneg hx')
      exact ⟨q, hq⟩

theorem Place.zero_le_ofInstant_iff {t : Instant} :
    Place.point 0 ≤ Place.ofInstant t ↔ 0 ≤ t := by
  rw [Place.ofInstant, Place.point_le_point, Int.le_floor, Int.cast_zero]
  exact mul_nonneg_iff_of_pos_right Number.unitsInOne_rat_pos

theorem Place.zero_le_ofInstant {t : Instant} (ht : 0 ≤ t) :
    Place.point 0 ≤ Place.ofInstant t :=
  Place.zero_le_ofInstant_iff.2 ht

/-- An instant before the end of the timeline lies within its segments. -/
theorem Resolution.bounds_of_instant {sources : Sources} {clips : List Clip}
    {segments : List Segment} {b : Place} {d : Number} {t : Instant}
    (h : Resolution sources clips segments b)
    (htimed : ∀ c ∈ clips, c.WellTimed) (hd : timelineDuration clips = .ok d)
    (ht : 0 ≤ t) (htd : d.isAfter t = true) :
    Place.point 0 ≤ Place.ofInstant t ∧ Place.ofInstant t < b := by
  have hzero := Place.zero_le_ofInstant ht
  refine ⟨hzero, ?_⟩
  obtain ⟨-, -, hmax, -⟩ := timelineDuration_spec htimed hd
  obtain ⟨p, hp, hlt⟩ := Number.exists_place_of_isAfter htd
  rcases hmax with rfl | ⟨c, hc, hstop⟩
  · obtain rfl : Place.point 0 = p :=
      Option.some.inj (Number.place?_zero.symm.trans hp)
    exact absurd hlt (not_lt.2 hzero)
  · obtain ⟨q, hq, hqb⟩ := h.stop_le hc hstop
    obtain rfl : q = p := Option.some.inj (hq.symm.trans hp)
    exact hlt.trans_le hqb

/-- Where no clip ends before it starts, the segments end with the timeline. -/
theorem Resolution.le_duration {sources : Sources} {clips : List Clip}
    {segments : List Segment} {b : Place} {d : Number}
    (h : Resolution sources clips segments b)
    (htimed : ∀ c ∈ clips, c.WellTimed) (hd : timelineDuration clips = .ok d)
    (hends : ∀ c ∈ clips, ∀ e, c.stop = .ok e → c.start.le e = true) :
    ∃ q, d.place? = some q ∧ b ≤ q := by
  obtain ⟨stops, hstops, hlast, hmax⟩ := timelineDuration_spec htimed hd
  obtain ⟨placed, -, hplaces, -⟩ := exists_placed hstops
  obtain ⟨x, hx, hxb⟩ := h.bound
  have hle : x.le d = true := by
    rcases hx with rfl | ⟨c, hc, rfl | he⟩
    · have hbound : IsBound clips d :=
        hlast.imp_right fun ⟨c, hc, he⟩ => ⟨c, hc, Or.inr he⟩
      obtain ⟨q, hq, hq0⟩ := hbound.nonneg htimed
      exact (Number.le_iff Number.place?_zero hq).2 hq0
    · obtain ⟨p', hp', rfl⟩ := List.mem_map.1 (hplaces.clips_eq ▸ hc)
      have he := hplaces.stop_eq p' hp'
      exact Number.le_trans (hends _ hc _ he) (hmax _ hc _ he)
    · exact hmax c hc x he
  obtain ⟨p, q, hp, hq, hpq⟩ := Number.exists_places_of_le hle
  obtain rfl : b = p := Option.some.inj (hxb.symm.trans hp)
  exact ⟨q, hq, hpq⟩

/-- Each instant of the timeline belongs to exactly one segment, and on each
channel that segment has the winner among the clips that play then. -/
theorem exists_segment_with_winners (sources : Sources) {clips : List Clip}
    {d : Number} {t : Instant} (hids : (clips.map Clip.id).Nodup)
    (htimed : ∀ c ∈ clips, c.WellTimed) (hd : timelineDuration clips = .ok d)
    (ht : 0 ≤ t) (htd : d.isAfter t = true) :
    ∃ segments s, resolve sources clips = .ok segments ∧
      segments.filter (·.holds t) = [s] ∧
      ∀ channel, IsWinner (s.winner? channel)
        (candidates sources clips t channel) := by
  obtain ⟨stops, hstops, -⟩ := timelineDuration_spec htimed hd
  obtain ⟨segments, b, hresolve, hres⟩ :=
    exists_resolution sources hids htimed hstops
  obtain ⟨hstart, hend⟩ := hres.bounds_of_instant htimed hd ht htd
  obtain ⟨s, hs, hholds, hfilter⟩ := hres.tiles.exists_filter_holds hstart hend
  refine ⟨segments, s, hresolve, hfilter, ?_⟩
  intro channel
  rw [isWinner_iff, Segment.winner?, (hres.resolved s hs).plays t hholds channel,
    Option.head?_toList]

/-- A film, a song above a part of it, and a hidden cut between the two. -/
def songOverFilm : List Clip :=
  [{ id := "film", mediaId := "film", track := 2, start := 0, duration := 2000 },
    { id := "song", mediaId := "song", track := 0, start := 500
      duration := .float (Binary64.ofRatio false (2001 * unitsInOne) 2) },
    { id := "cut", mediaId := "film", track := 1, start := 250
      duration := 1000, visible := false }]

def songAndFilm : Sources where
  media := [{ id := "film", name := "film.mp4", mimeType := "video/mp4" },
    { id := "song", name := "song.mp3", mimeType := "audio/mp3" }]

theorem exists_segment_of_song :
    (songOverFilm.map Clip.id).Nodup ∧ (∀ c ∈ songOverFilm, c.WellTimed) ∧
      timelineDuration songOverFilm = .ok 2000 ∧
      ∃ segments s, resolve songAndFilm songOverFilm = .ok segments ∧
        segments.filter (·.holds (2001 / 2)) = [s] ∧
        ∀ channel, IsWinner (s.winner? channel)
          (candidates songAndFilm songOverFilm (2001 / 2) channel) := by
  have hids : (songOverFilm.map Clip.id).Nodup := by decide
  have htimed : ∀ c ∈ songOverFilm, c.WellTimed := by
    simp only [songOverFilm, List.forall_mem_cons, List.not_mem_nil,
      false_implies, implies_true, and_true]
    exact ⟨⟨by decide +kernel, by decide +kernel⟩,
      ⟨by decide +kernel, by decide +kernel⟩,
      ⟨by decide +kernel, by decide +kernel⟩⟩
  have hd : timelineDuration songOverFilm = .ok 2000 := by decide +kernel
  refine ⟨hids, htimed, hd, ?_⟩
  exact exists_segment_with_winners songAndFilm hids htimed hd (by norm_num)
    (Number.isAfter_int.2 (by norm_num))

end Montage
