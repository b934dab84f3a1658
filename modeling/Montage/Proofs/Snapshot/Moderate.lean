import Montage.Proofs.Export.Length
import Montage.Proofs.Export.Writable

/-!
Moderate snapshots can be compiled.

What a snapshot is read from may hold numbers of any size.  Where they are moderate, every step of
a compilation gives a result: the timeline is resolved, its segments are joined, and the command is
written.
-/

namespace Montage

/-- The sizes of a frame that are set. -/
def Frame.parts : Frame → List Number
  | .size width height => width.toList ++ height.toList
  | .named _ => []

/-- The numbers among the settings. -/
def ExportSettings.numbers (s : ExportSettings) : List Number :=
  [s.fps, s.crf, s.sampleRate, s.rangeStart, s.rangeEnd].filterMap Document.number?
    ++ s.resolution.parts

/-- The numbers of a media item that an export uses. -/
def Media.parts (m : Media) : List Number := m.width.toList ++ m.height.toList

/-- All numbers that an export uses are moderate, with filters given by a rule. -/
structure Snapshot.Moderate (rule : FilterRule) (s : Snapshot) : Prop where
  clips : ∀ c ∈ s.clips, c.Moderate rule
  media : ∀ m ∈ s.media, ∀ x ∈ m.parts, x.Moderate
  settings : ∀ x ∈ s.settings.numbers, x.Moderate

instance (rule : FilterRule) (s : Snapshot) : Decidable (s.Moderate rule) :=
  decidable_of_iff ((∀ c ∈ s.clips, c.Moderate rule) ∧
      (∀ m ∈ s.media, ∀ x ∈ m.parts, x.Moderate) ∧ ∀ x ∈ s.settings.numbers, x.Moderate)
    ⟨fun ⟨hclips, hmedia, hsettings⟩ => ⟨hclips, hmedia, hsettings⟩,
      fun h => ⟨h.clips, h.media, h.settings⟩⟩

/-- A number is a whole one. -/
def Number.IsInt (a : Number) : Prop := ∃ n, a = .int n

/-- The settings have the kinds that a document gives them. -/
structure ExportSettings.WellFormed (s : ExportSettings) : Prop
    extends s.WellTyped fun _ => True where
  frame : ∀ x ∈ s.resolution.parts, x.IsInt

/-- What is checked when a snapshot is read. -/
structure Snapshot.WellFormed (s : Snapshot) : Prop where
  ids : (s.clips.map Clip.id).Nodup
  starts : ∀ c ∈ s.clips, c.start.lt 0 = false
  durations : ∀ c ∈ s.clips, c.duration.le 0 = false
  media : ∀ m ∈ s.media, ∀ x ∈ m.parts, x.IsInt
  settings : s.settings.WellFormed

namespace Number

variable {a x : Number} {size : Nat}

/-- Between zero and a finite number all numbers are finite. -/
theorem AtMost.of_le {p q : Place} (hx : x.AtMost size) (hp : a.place? = some p)
    (hq : x.place? = some q) (hpos : Place.point 0 ≤ p) (hpq : p ≤ q) : a.AtMost size := by
  obtain ⟨n, hn, hle⟩ := hx
  obtain rfl : q = .point n := Option.some.inj (hq.symm.trans hn)
  obtain ⟨m, rfl, hleast, hmost⟩ := Place.exists_point hpos hpq
  exact ⟨m, hp, by omega⟩

theorem AtMost.zero_le (h : a.AtMost size) (hneg : a.lt 0 = false) :
    Number.le 0 a = true := by
  obtain ⟨n, hn, -⟩ := h
  rw [le_iff place?_zero hn, ← not_lt, ← lt_iff hn place?_zero, hneg]
  exact Bool.false_ne_true

theorem AtMost.zero_lt (h : a.AtMost size) (hpos : a.le 0 = false) :
    Number.lt 0 a = true := by
  obtain ⟨n, hn, -⟩ := h
  rw [lt_iff place?_zero hn, ← not_le, ← le_iff hn place?_zero, hpos]
  exact Bool.false_ne_true

end Number

theorem exists_finite? {d : Document} (h : ∀ x ∈ d.number?, x.Fits) :
    ∃ v, finite? d = .ok v := by
  cases d with
  | number x =>
      obtain ⟨y, hy⟩ := h x rfl
      exact exists_bind hy ⟨_, rfl⟩
  | _ => exact ⟨_, rfl⟩

theorem Tiles.forall_atMost {a b d : Place} {segments : List Segment} {x : Number}
    {size : Nat} (h : Tiles a (max a (min b d)) segments) (ha : Place.point 0 ≤ a)
    (hx : x.AtMost size) (hb : x.place? = some b) :
    ∀ s ∈ segments, s.start.AtMost size ∧ s.stop.AtMost size := by
  intro s hs
  obtain ⟨p, e, hp, he, hap, hpe, hend⟩ := h.places_of_mem hs
  have hpast : e ≤ b := by
    rcases le_max_iff.1 hend with hle | hle
    · exact absurd (hap.trans_lt hpe) (not_lt.2 hle)
    · exact hle.trans (min_le_left b d)
  exact ⟨hx.of_le hp hb (ha.trans hap) (hpe.le.trans hpast),
    hx.of_le he hb (ha.trans (hap.trans hpe.le)) hpast⟩

namespace Clip.Moderate

variable {rule : FilterRule} {c p n : Clip}

theorem wellTimed (h : c.Moderate rule) (hstart : c.start.lt 0 = false)
    (hduration : c.duration.le 0 = false) : c.WellTimed :=
  ⟨h.start.zero_le hstart, h.duration.zero_lt hduration⟩

theorem hasVolume (h : c.Moderate rule) : (rule c).HasVolume := by
  obtain ⟨x, hx, hmoderate⟩ := h.volume
  refine exists_finite? ?_
  intro y hy
  obtain rfl : x = y := Option.some.inj (hx.symm.trans hy)
  exact hmoderate.fits (by decide)

theorem exists_seamless (hp : p.Moderate rule) (hn : n.Moderate rule) {boundary : Number}
    (hb : boundary.Fits) : ∃ b, seamless p n boundary = .ok b := by
  obtain ⟨e, he, hesize⟩ := hp.gives_stop
  obtain ⟨d, hd, hdsize⟩ := Number.gives_mul hp.duration.bounded hp.speed (by decide)
  obtain ⟨m, hm, hmsize⟩ := Number.gives_add (hp.trim.mono (by decide)) hdsize (by decide)
  obtain ⟨ends, hends⟩ := exists_closeTimes (hesize.bounded.fits (by decide)) hb
  obtain ⟨starts, hstarts⟩ := exists_closeTimes (hn.start.bounded.fits (by decide)) hb
  refine exists_refuse (exists_refuse (exists_refuse ?_))
  refine exists_bind he (exists_bind hends (exists_refuse ?_))
  refine exists_bind hstarts (exists_refuse ?_)
  exact exists_bind hd (exists_bind hm (exists_closeTimes (hmsize.fits (by decide))
    (hn.trim.fits (by decide))))

end Clip.Moderate

theorem IsBound.atMost {rule : FilterRule} {clips : List Clip} {x : Number}
    (h : IsBound clips x) (hclips : ∀ c ∈ clips, c.Moderate rule) :
    x.AtMost (2 ^ (moderateExponent + 1)) := by
  rcases h with rfl | ⟨c, hc, rfl | hstop⟩
  · exact Number.atMost_zero
  · exact (hclips c hc).start.powMono (Nat.le_succ _)
  · obtain ⟨e, he, hsize⟩ := (hclips c hc).gives_stop
    obtain rfl : e = x := Except.ok.inj (he.symm.trans hstop)
    exact hsize

namespace Snapshot

variable {s : Snapshot} {infos : Option (List (String × MediaInfo))}
  {rule : Option FilterRule}

theorem Moderate.exists_range? (h : s.Moderate (s.ruleFor rule)) :
    ∃ range, s.range? = .ok range := by
  have hfits : ∀ d ∈ [s.settings.fps, s.settings.crf, s.settings.sampleRate,
      s.settings.rangeStart, s.settings.rangeEnd], ∀ x ∈ d.number?, x.Fits := by
    intro d hd x hx
    exact (h.settings x (List.mem_append_left _ (List.mem_filterMap.2 ⟨d, hd, hx⟩))).fits
      (by decide)
  obtain ⟨start, hstart⟩ := exists_finite? (hfits s.settings.rangeStart (by simp))
  obtain ⟨stop, hstop⟩ := exists_finite? (hfits s.settings.rangeEnd (by simp))
  exact ⟨_, ExportRange.ofSettings_eq hstart hstop⟩

/-- The segments of a moderate snapshot can be planned, and they are moderate. -/
theorem WellFormed.gives_planSegments (hs : s.WellFormed)
    (infos : Option (List (String × MediaInfo))) (rule : Option FilterRule)
    (h : s.Moderate (s.ruleFor rule)) :
    Gives (fun plan? => ∀ joined ∈ plan?, ∀ g ∈ joined.segments,
      g.Moderate (s.ruleFor rule)) (s.planSegments infos rule) := by
  have htimed : ∀ c ∈ s.clips, c.WellTimed := fun c hc =>
    (h.clips c hc).wellTimed (hs.starts c hc) (hs.durations c hc)
  obtain ⟨stops, hstops⟩ := exists_mapM fun c hc => (h.clips c hc).gives_stop.exists_ok
  obtain ⟨segments, b, hresolve, hres⟩ :=
    exists_resolution (s.sources infos) hs.ids htimed hstops
  obtain ⟨_ | range, hrange⟩ := h.exists_range?
  · rw [planSegments_of_no_range ⟨segments, hresolve⟩, hrange]
    · refine .ok ?_
      simp only [Option.mem_def, reduceCtorEq, false_implies, implies_true]
    · intro range
      simp only [hrange, ne_eq, Except.ok.injEq, reduceCtorEq, not_false_eq_true]
  · obtain ⟨p, e, hset⟩ := ExportRange.ofSettings_spec hrange
    have hcut := hres.cut hset
    obtain ⟨x, hbound, hx⟩ := hres.bound
    have hsize := hbound.atMost h.clips
    have hcuts := hcut.tiles.forall_atMost hset.nonneg hsize hx
    have hmeasured : (range.clip segments).IsChain fun u v =>
        Measured s.clips u.stop v.start := by
      refine hcut.tiles.isChain.imp_of_mem_imp ?_
      intro u v hu hv _
      have hstart := (hcuts v hv).1.bounded.fits (by decide)
      exact ⟨exists_closeTimes ((hcuts u hu).2.bounded.fits (by decide)) hstart,
        fun p hp n hn => (h.clips p hp).exists_seamless (h.clips n hn) hstart⟩
    obtain ⟨joined, hjoined⟩ := exists_joinAll_of_measured
      (fun c hc => (h.clips c hc).hasVolume) hcut.within hmeasured
    have hjoins := (joinAll_tiles hcut.tiles hjoined).forall_atMost hset.nonneg hsize hx
    have hwithin := within_of_joinAll (coherent_of_nodup hs.ids) hcut.within hjoined
    rw [planSegments_eq (coherent_of_nodup hs.ids) hresolve hrange hcut.within, hjoined]
    refine .ok ?_
    rintro _ ⟨⟩ g hg
    exact ⟨(hjoins g hg).1, (hjoins g hg).2,
      fun channel c hc => h.clips c (hwithin g hg channel c hc)⟩

theorem writable (hs : s.WellFormed) {rule : FilterRule} (h : s.Moderate rule) :
    s.settings.WellTyped Number.Fits := by
  refine hs.settings.withNumbers ?_
  rintro d hd x rfl
  have hnumber : x ∈ s.settings.numbers := by
    refine List.mem_append_left _ (List.mem_filterMap.2 ⟨.number x, ?_, rfl⟩)
    exact List.mem_append_left [s.settings.rangeStart, s.settings.rangeEnd] hd
  exact (h.settings x hnumber).fits (by decide)

end Snapshot

section Sizes

theorem gives_wholeOr {fallback : Int} {size : Option Number}
    (hfallback : (Number.int fallback).Moderate)
    (hsize : ∀ x ∈ size.toList, x.IsInt ∧ x.Moderate) :
    Gives (fun n => (Number.int n).Moderate) (wholeOr fallback size) := by
  rcases size with _ | x
  · exact .ok hfallback
  · obtain ⟨⟨n, rfl⟩, hn⟩ := hsize x List.mem_cons_self
    rw [wholeOr]
    split
    · exact .ok hfallback
    · exact .ok hn

/-- The sizes of media are moderate whole numbers. -/
def Media.Sized (m : Media) : Prop := ∀ x ∈ m.parts, x.IsInt ∧ x.Moderate

theorem Media.Sized.gives_width {m : Media} (h : m.Sized) :
    Gives (fun n => (Number.int n).Moderate) (wholeOr 0 m.width) :=
  gives_wholeOr Number.bounded_zero fun x hx => h x (List.mem_append_left _ hx)

theorem Media.Sized.gives_height {m : Media} (h : m.Sized) :
    Gives (fun n => (Number.int n).Moderate) (wholeOr 0 m.height) :=
  gives_wholeOr Number.bounded_zero fun x hx => h x (List.mem_append_right _ hx)

/-- Both sides of a frame are moderate. -/
def ModerateFrame (frame : Int × Int) : Prop :=
  (Number.int frame.1).Moderate ∧ (Number.int frame.2).Moderate

theorem moderate_max {m n : Int} (hm : (Number.int m).Moderate)
    (hn : (Number.int n).Moderate) : (Number.int (max m n)).Moderate := by
  rcases max_choice m n with h | h
  · rwa [h]
  · rwa [h]

theorem leastFrame_moderate : ModerateFrame (leastWidth, leastHeight) :=
  ⟨by decide +kernel, by decide +kernel⟩

theorem gives_growFrame {media : List Media} (hmedia : ∀ m ∈ media, m.Sized)
    {frame : Int × Int} (hframe : ModerateFrame frame) (c : Clip) :
    Gives ModerateFrame (growFrame media frame c) := by
  rw [growFrame]
  split
  · exact .ok hframe
  · next m hm =>
      have hsized := hmedia m (List.mem_reverse.1 (List.mem_of_find?_eq_some hm))
      refine .bind hsized.gives_width ?_
      intro width hwidth
      refine .bind hsized.gives_height ?_
      intro height hheight
      exact .ok ⟨moderate_max hframe.1 hwidth, moderate_max hframe.2 hheight⟩

theorem gives_outputFrame {settings : ExportSettings} (clips : List Clip)
    {media : List Media} (hframe : ∀ x ∈ settings.resolution.parts, x.IsInt ∧ x.Moderate)
    (hmedia : ∀ m ∈ media, m.Sized) :
    Gives ModerateFrame (outputFrame settings clips media) := by
  rw [outputFrame]
  split
  · next w h hsize =>
      rw [hsize] at hframe
      refine .bind (gives_wholeOr leastFrame_moderate.1
        fun x hx => hframe x (List.mem_append_left _ hx)) ?_
      intro width hwidth
      refine .bind (gives_wholeOr leastFrame_moderate.2
        fun x hx => hframe x (List.mem_append_right _ hx)) ?_
      intro height hheight
      exact .ok ⟨hwidth, hheight⟩
  · split
    · exact .foldlM leastFrame_moderate fun c _ frame hframe =>
        gives_growFrame hmedia hframe c
    · exact .ok leastFrame_moderate

end Sizes

namespace Snapshot

variable {s : Snapshot} {infos : Option (List (String × MediaInfo))}
  {rule : Option FilterRule}

section Results

variable (hs : s.WellFormed) (h : s.Moderate (s.ruleFor rule))
include hs h

theorem sized_media : ∀ m ∈ s.media, m.Sized :=
  fun m hm x hx => ⟨hs.media m hm x hx, h.media m hm x hx⟩

theorem exists_copyResult (joined : Joined) {plan : CopyPlan} (hmedia : plan.media ∈ s.media)
    (hwindows : ∀ w ∈ plan.windows, w.Fits) :
    ∃ r, s.copyResult joined plan = .ok r := by
  obtain ⟨command, hcommand⟩ := (writable hs h).exists_copyCommand hwindows
  have hsized := sized_media hs h plan.media hmedia
  obtain ⟨width, hwidth, -⟩ := hsized.gives_width
  obtain ⟨height, hheight, -⟩ := hsized.gives_height
  exact exists_bind hcommand (exists_bind hwidth (exists_bind hheight ⟨_, rfl⟩))

theorem exists_renderResult {joined : Joined}
    (hjoined : ∀ g ∈ joined.segments, g.Moderate (s.ruleFor rule)) :
    ∃ o, s.renderResult infos rule joined = .ok o := by
  have hwritable := writable hs h
  have hframe : ∀ x ∈ s.settings.resolution.parts, x.IsInt ∧ x.Moderate :=
    fun x hx => ⟨hs.settings.frame x hx, h.settings x (List.mem_append_right _ hx)⟩
  obtain ⟨⟨width, height⟩, hsize, hwidth, hheight⟩ :=
    gives_outputFrame s.clips hframe (sized_media hs h)
  have hgraph : (GraphContext.mk (s.sources infos) s.settings (s.ruleFor rule) width
      height).Moderate := ⟨hwritable.frameRate, hwritable.soundRate, hwidth, hheight⟩
  obtain ⟨plan, hplan, hrenders⟩ := hgraph.gives_plan hjoined
  refine exists_bind hsize (exists_bind hplan ?_)
  rcases plan with _ | plan
  · exact ⟨_, rfl⟩
  · obtain ⟨command, hcommand⟩ := hwritable.exists_renderCommand (hrenders plan rfl)
    exact exists_bind hcommand ⟨_, rfl⟩

end Results

/-- A moderate snapshot can be compiled, and the segments of the result are
moderate. -/
theorem WellFormed.gives_compile (hs : s.WellFormed)
    (infos : Option (List (String × MediaInfo))) (rule : Option FilterRule)
    (h : s.Moderate (s.ruleFor rule)) :
    Gives (fun result => ∀ r ∈ result, ∀ g ∈ r.segments, g.Moderate (s.ruleFor rule))
      (s.compile infos rule) := by
  have hcompiles : ∃ result, s.compile infos rule = .ok result := by
    obtain ⟨plan, hplan, hmoderate⟩ := hs.gives_planSegments infos rule h
    rw [compile]
    split
    · exact ⟨_, rfl⟩
    · refine exists_bind hplan ?_
      rcases plan with _ | joined
      · exact ⟨_, rfl⟩
      · have hjoined := hmoderate joined rfl
        dsimp only
        split
        · exact ⟨_, rfl⟩
        · have hcopy : Gives (fun found => ∀ p ∈ found, (∀ w ∈ p.windows, w.Fits) ∧
              p.media ∈ s.media) (s.copyPlan infos rule joined.segments) := by
            rw [copyPlan]
            split
            · exact CopyContext.gives_plan (k := ⟨s.sources infos, s.ruleFor rule⟩) hjoined
            · refine .ok ?_
              simp only [Option.mem_def, reduceCtorEq, false_implies, implies_true]
          obtain ⟨found, hfound, hplan⟩ := hcopy
          refine exists_bind hfound ?_
          rcases found with _ | plan
          · exact exists_renderResult hs h hjoined
          · obtain ⟨hwindows, hmedia⟩ := hplan plan rfl
            obtain ⟨r, hr⟩ := exists_copyResult hs h joined hmedia hwindows
            exact exists_bind hr ⟨_, rfl⟩
  obtain ⟨result, hresult⟩ := hcompiles
  refine ⟨result, hresult, ?_⟩
  rintro r rfl
  obtain ⟨joined, hplan, hsegments, -⟩ := compile_cases hresult
  obtain ⟨plan, hplan', hmoderate⟩ := hs.gives_planSegments infos rule h
  obtain rfl : some joined = plan := Except.ok.inj (hplan.symm.trans hplan')
  rw [hsegments]
  exact hmoderate joined rfl

end Snapshot

end Montage
