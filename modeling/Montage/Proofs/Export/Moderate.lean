import Montage.Proofs.Export.Rendering
import Montage.Proofs.Export.Copy

/-!
Exports of moderate clips.

Numbers are moderate when whole numbers keep far from the end of the range of binary64, so that no
sum and no product on the way to a command leaves it.
-/

namespace Montage

/-- The exponent of the greatest power of two that moderate numbers may reach. -/
def moderateExponent : Nat := 256

/-- A moderate whole number, or a binary64 value. -/
abbrev Number.Moderate (a : Number) : Prop := a.Bounded moderateExponent

/-- The numbers of a clip are moderate, and so are those of its filters.  Its times
are finite too. -/
structure Clip.Moderate (rule : FilterRule) (c : Clip) : Prop where
  start : c.start.AtMost (2 ^ moderateExponent)
  duration : c.duration.AtMost (2 ^ moderateExponent)
  trim : c.trim.Moderate
  speed : c.playSpeed.Moderate
  video : (rule c).video.Bounded moderateExponent
  audio : (rule c).audio.Bounded moderateExponent
  pitch : ((rule c).audio.amount .pitch).AtMost pitchLimit
  volume : ∃ x ∈ (rule c).volume.number?, x.Moderate

instance (rule : FilterRule) (c : Clip) : Decidable (c.Moderate rule) :=
  decidable_of_iff (c.start.AtMost (2 ^ moderateExponent) ∧
      c.duration.AtMost (2 ^ moderateExponent) ∧ c.trim.Moderate ∧ c.playSpeed.Moderate ∧
      (rule c).video.Bounded moderateExponent ∧ (rule c).audio.Bounded moderateExponent ∧
      ((rule c).audio.amount .pitch).AtMost pitchLimit ∧
      ∃ x ∈ (rule c).volume.number?, x.Moderate)
    ⟨fun ⟨hstart, hduration, htrim, hspeed, hvideo, haudio, hpitch, hvolume⟩ =>
      ⟨hstart, hduration, htrim, hspeed, hvideo, haudio, hpitch, hvolume⟩,
    fun h => ⟨h.start, h.duration, h.trim, h.speed, h.video, h.audio, h.pitch, h.volume⟩⟩

/-- The times of a segment are those of moderate clips, at most, and its clips are
moderate. -/
structure Segment.Moderate (rule : FilterRule) (s : Segment) : Prop where
  start : s.start.AtMost (2 ^ (moderateExponent + 1))
  stop : s.stop.AtMost (2 ^ (moderateExponent + 1))
  clips : ∀ channel, ∀ c ∈ s.run channel, c.Moderate rule

namespace Window

/-- The times and the speed of a window are within the range of binary64. -/
structure Fits (w : Window) : Prop where
  start : w.start.Fits
  stop : w.stop.Fits
  speed : w.speed.Fits

end Window

variable {rule : FilterRule} {c : Clip} {s : Segment}

theorem Clip.Moderate.gives_stop (h : c.Moderate rule) :
    Gives (Number.AtMost (2 ^ (moderateExponent + 1))) c.stop :=
  h.start.gives_add (by decide) h.duration

theorem Segment.Moderate.gives_duration (h : s.Moderate rule) :
    Gives (Number.Bounded (moderateExponent + 2)) s.duration :=
  Number.gives_sub h.stop.bounded h.start.bounded (by decide)

/-- A moderate slice of a moderate clip has a window. -/
theorem Clip.Moderate.gives_ofSlice (h : c.Moderate rule) {start duration : Number}
    (hstart : start.AtMost (2 ^ (moderateExponent + 1)))
    (hduration : duration.Bounded (moderateExponent + 2)) :
    Gives Window.Fits (Window.ofSlice c start duration) := by
  refine .bind (Number.gives_sub hstart.bounded (h.start.bounded.mono (by decide)) (by decide)) ?_
  intro offset hoffset
  refine .bind (Number.gives_mul hduration h.speed (by decide)) ?_
  intro length hlength
  have hwindow : ∀ first : Number, first.Bounded 517 →
      Gives Window.Fits (do return ⟨first, ← first.add length, c.playSpeed⟩) := by
    intro first hfirst
    refine .bind (Number.gives_add hfirst (hlength.mono (by decide)) (by decide)) ?_
    intro last hlast
    exact .ok ⟨hfirst.fits (by decide), hlast.fits (by decide), h.speed.fits (by decide)⟩
  split
  · refine .bind (Number.gives_mul h.duration.bounded h.speed (by decide)) ?_
    intro whole hwhole
    refine .bind (Number.gives_add (hoffset.mono (Nat.le_refl _)) hduration (by decide)) ?_
    intro reached hreached
    refine .bind (Number.gives_mul hreached h.speed (by decide)) ?_
    intro played hplayed
    refine .bind (Number.gives_sub (hwhole.mono (by decide)) hplayed (by decide)) ?_
    intro back hback
    refine .bind (Number.gives_add (h.trim.mono (by decide))
      (Number.bounded_zero.max hback) (by decide)) ?_
    intro first hfirst
    exact hwindow first (hfirst.mono (by decide))
  · refine .bind (Number.gives_mul hoffset h.speed (by decide)) ?_
    intro played hplayed
    refine .bind (Number.gives_add (h.trim.mono (by decide)) hplayed (by decide)) ?_
    intro first hfirst
    exact hwindow first (hfirst.mono (by decide))

theorem Document.exists_parameter {d : Document} {x : Number} (hd : d.number? = some x)
    (hx : x.Fits) : ∃ text, d.parameter = .ok text := by
  obtain ⟨y, hy⟩ := hx
  cases d with
  | number z =>
      obtain rfl : z = x := Option.some.inj hd
      exact exists_bind hy ⟨_, rfl⟩
  | bool b => exact ⟨_, rfl⟩
  | _ => simp only [number?, reduceCtorEq] at hd

/-- The value is a number with a property. -/
def Document.IsNumber (P : Number → Prop) (d : Document) : Prop := ∃ x, d = .number x ∧ P x

namespace Document.IsNumber

variable {P : Number → Prop} {d : Document}

theorem orElse (h : d.IsNumber P) {n : Int} (hn : P (.int n)) :
    (d.orElse (.number (.int n))).IsNumber P := by
  rw [Document.orElse]
  split
  · exact ⟨_, rfl, hn⟩
  · exact h

theorem exists_parameter (h : d.IsNumber Number.Fits) :
    ∃ text, d.parameter = .ok text := by
  obtain ⟨x, rfl, hx⟩ := h
  exact Document.exists_parameter rfl hx

end Document.IsNumber

open Stage

namespace GraphContext

variable {g : GraphContext} {m : Media} {d : Number} {inputs : List Media}
  {label : String}

/-- The frame rate and the sample rate are numbers, and the size is moderate. -/
structure Moderate (g : GraphContext) : Prop where
  frames : g.settings.frameRate.IsNumber Number.Fits
  samples : g.settings.soundRate.IsNumber Number.Fits
  width : (Number.int g.width).Moderate
  height : (Number.int g.height).Moderate

theorem Moderate.renders_fitted (h : g.Moderate) :
    AllRender [.scale (.int g.width) (.int g.height),
      .pad (.int g.width) (.int g.height), .setSar, .pixelFormat "yuv420p"] := by
  obtain ⟨hscale, hpad⟩ := Stage.renders_fitted h.width h.height (by decide)
  exact hscale.cons (hpad.cons (Renders.cons ⟨_, rfl⟩ (Renders.allRender ⟨_, rfl⟩)))

theorem Moderate.black_renders (h : g.Moderate) (hd : d.Fits) :
    (g.black d label).Renders := by
  obtain ⟨width, hwidth⟩ := exists_sizeText h.width (by decide)
  obtain ⟨height, hheight⟩ := exists_sizeText h.height (by decide)
  obtain ⟨rate, hrate⟩ := h.frames.exists_parameter
  obtain ⟨time, htime⟩ := Number.exists_seconds hd
  have hcolor : (Stage.color (.int g.width) (.int g.height) g.settings.frameRate d
      "black").Renders :=
    exists_bind hwidth (exists_bind hheight (exists_bind hrate (exists_bind htime ⟨_, rfl⟩)))
  have hrest : AllRender [.pixelFormat "yuv420p", .setSar] :=
    Renders.cons ⟨_, rfl⟩ (Renders.allRender ⟨_, rfl⟩)
  exact (hcolor.cons hrest).chain [] [label]

theorem Moderate.silence_renders (h : g.Moderate) (hd : d.Fits) :
    (g.silence d label).Renders := by
  obtain ⟨rate, hrate⟩ := h.samples.exists_parameter
  obtain ⟨time, htime⟩ := Number.exists_seconds hd
  have hsource : (Stage.nullSource g.settings.soundRate d "stereo").Renders :=
    exists_bind hrate (exists_bind htime ⟨_, rfl⟩)
  exact hsource.allRender.chain [] [label]

theorem Moderate.gives_picture (h : g.Moderate) (hc : c.Moderate g.rule) (hs : s.Moderate g.rule) :
    Gives Chain.Renders (g.picture inputs s c m label) := by
  refine .bind hs.gives_duration ?_
  intro duration hduration
  refine .bind (hc.gives_ofSlice hs.start hduration) ?_
  intro window hwindow
  refine .bind (.of_exists (Number.exists_seconds hwindow.start)) ?_
  intro start _
  refine .bind (.of_exists (Number.exists_seconds hwindow.stop)) ?_
  intro stop _
  refine .bind (gives_stageIf (gives_atSpeed hwindow.speed)) ?_
  intro speed hspeed
  refine .bind (gives_videoEffects hc.video (by decide) (hduration.fits (by decide))) ?_
  intro effects heffects
  have hcut : AllRender [.trim start stop, .setPts fromZero] :=
    Renders.cons ⟨_, rfl⟩ (Renders.allRender ⟨_, rfl⟩)
  have hturned : AllRender (if c.reversed = true then [.reverse, .setPts fromZero]
      else []) :=
    allRender_ite (Renders.cons ⟨_, rfl⟩ (Renders.allRender ⟨_, rfl⟩))
  exact .ok (((((hcut.append hturned).append hspeed).append heffects).append
    h.renders_fitted).chain _ _)

theorem Moderate.gives_sound (h : g.Moderate) (hc : c.Moderate g.rule)
    (hs : s.Moderate g.rule) :
    Gives Chain.Renders (g.sound inputs s c m label) := by
  refine .bind hs.gives_duration ?_
  intro duration hduration
  have hfits := hduration.fits (by decide)
  refine .bind (hc.gives_ofSlice hs.start hduration) ?_
  intro window hwindow
  refine .bind (.of_exists (Number.exists_seconds hwindow.start)) ?_
  intro start _
  refine .bind (.of_exists (Number.exists_seconds hwindow.stop)) ?_
  intro stop _
  obtain ⟨rate, hrate, hratefits⟩ := h.samples
  dsimp only
  rw [hrate]
  refine .bind (gives_tempoStages hwindow.speed hc.pitch hratefits) ?_
  intro tempo htempo
  refine .bind (gives_audioEffects hc.audio (by decide) hfits) ?_
  intro effects heffects
  have hcut : AllRender [.audioTrim start stop, .audioSetPts fromZero] :=
    Renders.cons ⟨_, rfl⟩ (Renders.allRender ⟨_, rfl⟩)
  have hturned : AllRender (if c.reversed = true then
      [.audioReverse, .audioSetPts fromZero] else []) :=
    allRender_ite (Renders.cons ⟨_, rfl⟩ (Renders.allRender ⟨_, rfl⟩))
  have hvolume : (Stage.volume (if c.muted = true then .number 0
      else (g.rule c).volume)).Renders := by
    have hzero : (0 : Number).Fits := Number.bounded_zero.fits (k := 0) (by decide)
    obtain ⟨x, hx, hmoderate⟩ := hc.volume
    have hlevel : ∃ text, (if c.muted = true then .number 0
        else (g.rule c).volume).parameter = .ok text := by
      split
      · exact Document.exists_parameter rfl hzero
      · exact Document.exists_parameter hx (hmoderate.fits (by decide))
    obtain ⟨text, htext⟩ := hlevel
    exact exists_bind htext ⟨_, rfl⟩
  have hlevel : AllRender (if (if c.muted = true then Document.number 0
      else (g.rule c).volume).agrees (.number 1) = true then []
      else [Stage.volume (if c.muted = true then .number 0 else (g.rule c).volume)]) :=
    allRender_unless hvolume.allRender
  have hstages := (((hcut.append hturned).append htempo).append heffects).append hlevel
  split
  · refine .bind (gives_clickFades hfits) ?_
    intro clicks hclicks
    exact .ok ((hstages.append hclicks).chain _ _)
  · exact .ok ((hstages.append allRender_nil).chain _ _)

theorem Moderate.gives_videoChain (h : g.Moderate) (hs : s.Moderate g.rule) :
    Gives Chain.Renders (g.videoChain inputs s label) := by
  have hblack : Gives Chain.Renders (do return g.black (← s.duration) label) := by
    refine .bind hs.gives_duration ?_
    intro duration hduration
    exact .ok (h.black_renders (hduration.fits (by decide)))
  rw [videoChain]
  split
  · exact hblack
  · next c m hfound =>
      obtain ⟨c', hwinner, hmedia⟩ := Option.bind_eq_some_iff.1 hfound
      obtain ⟨_, -, hpair⟩ := Option.map_eq_some_iff.1 hmedia
      obtain ⟨rfl, rfl⟩ := Prod.mk.inj hpair
      split
      · exact h.gives_picture (hs.clips .video c' (List.mem_of_mem_head? hwinner)) hs
      · exact hblack

theorem Moderate.gives_audioChain (h : g.Moderate) (hs : s.Moderate g.rule) :
    Gives Chain.Renders (g.audioChain inputs s label) := by
  have hsilence : Gives Chain.Renders (do return g.silence (← s.duration) label) := by
    refine .bind hs.gives_duration ?_
    intro duration hduration
    exact .ok (h.silence_renders (hduration.fits (by decide)))
  rw [audioChain]
  split
  · exact hsilence
  · next c m hfound =>
      obtain ⟨c', hwinner, hmedia⟩ := Option.bind_eq_some_iff.1 hfound
      obtain ⟨_, -, hpair⟩ := Option.map_eq_some_iff.1 hmedia
      obtain ⟨rfl, rfl⟩ := Prod.mk.inj hpair
      split
      · exact h.gives_sound (hs.clips .audio c' (List.mem_of_mem_head? hwinner)) hs
      · exact hsilence

theorem gives_keeps (hs : s.Moderate g.rule) : Gives (fun _ => True) (g.keeps s) :=
  .bind hs.gives_duration fun _ _ => .ok trivial

theorem gives_inputs {segments : List Segment}
    (hs : ∀ s ∈ segments, s.Moderate g.rule) :
    Gives (fun _ => True) (g.inputs segments) :=
  .foldlM trivial fun s hmem _ _ => .bind (gives_keeps (hs s hmem)) fun _ _ => .ok trivial

theorem Moderate.gives_segmentChains (h : g.Moderate) {segments : List Segment}
    (hs : ∀ s ∈ segments, s.Moderate g.rule) (i : Nat) :
    Gives (fun kept => ∀ k ∈ kept, k.2.2.1.Renders ∧ k.2.2.2.Renders)
      (g.segmentChains inputs i segments) := by
  induction segments generalizing i with
  | nil => exact .ok (List.forall_mem_nil _)
  | cons s rest ih =>
      obtain ⟨hs, hrest⟩ := List.forall_mem_cons.1 hs
      refine .bind (gives_keeps hs) ?_
      intro kept _
      split
      · refine .bind (h.gives_videoChain hs) ?_
        intro video hvideo
        refine .bind (h.gives_audioChain hs) ?_
        intro audio haudio
        refine .bind (ih hrest (i + 1)) ?_
        intro later hlater
        exact .ok (List.forall_mem_cons.2 ⟨⟨hvideo, haudio⟩, hlater⟩)
      · exact ih hrest (i + 1)

/-- The graph of moderate segments, if there is one, can be written. -/
theorem Moderate.gives_plan (h : g.Moderate) {segments : List Segment}
    (hs : ∀ s ∈ segments, s.Moderate g.rule) :
    Gives (fun plan? => ∀ plan ∈ plan?, ∃ text, plan.render = .ok text)
      (g.plan segments) := by
  refine .bind (gives_inputs hs) ?_
  intro inputs _
  have hnone : ∀ plan ∈ (none : Option GraphPlan), ∃ text, plan.render = .ok text := by
    simp only [Option.mem_def, reduceCtorEq, false_implies, implies_true]
  split
  · exact .ok hnone
  · refine .bind (h.gives_segmentChains hs 0) ?_
    intro kept hkept
    split
    · exact .ok hnone
    · refine .ok ?_
      rintro _ ⟨⟩
      have hlast : (lastChain (kept.map (·.1))).Renders :=
        AllRender.chain (Renders.allRender ⟨_, rfl⟩) _ _
      have hchains : ∀ chain ∈ kept.flatMap (fun k => [k.2.2.1, k.2.2.2]) ++
          [lastChain (kept.map (·.1))], ∃ text, chain.render = .ok text := by
        refine List.forall_mem_append.2 ⟨?_, List.forall_mem_singleton.2 hlast⟩
        intro chain hmem
        obtain ⟨k, hk, hmem⟩ := List.mem_flatMap.1 hmem
        obtain ⟨hvideo, haudio⟩ := hkept k hk
        rcases List.mem_pair.1 hmem with rfl | rfl
        · exact hvideo
        · exact haudio
      obtain ⟨texts, htexts⟩ := exists_mapM hchains
      exact exists_bind htexts ⟨_, rfl⟩

end GraphContext

namespace CopyContext

variable {k : CopyContext} {segments : List Segment}

theorem gives_windows (hs : ∀ s ∈ segments, s.Moderate k.rule) (source : Option String) :
    Gives (fun found => ∀ r ∈ found, ∀ w ∈ r.2, w.Fits) (k.windows source segments) := by
  have hnone : ∀ r ∈ (none : Option (Option String × List Window)), ∀ w ∈ r.2, w.Fits := by
    simp only [Option.mem_def, reduceCtorEq, false_implies, implies_true]
  induction segments generalizing source with
  | nil =>
      refine .ok ?_
      rintro _ ⟨⟩
      exact List.forall_mem_nil _
  | cons s rest ih =>
      obtain ⟨hs, hrest⟩ := List.forall_mem_cons.1 hs
      have hcopies : Gives (fun _ => True) (k.copiesSegment s) := by
        refine .bind hs.gives_duration ?_
        intro duration _
        split
        · exact .ok trivial
        · exact .ok trivial
      refine .bind hcopies ?_
      intro copies _
      split
      · exact .ok hnone
      · split
        · next shared c _ hwinner =>
            have hc := hs.clips .video c (List.mem_of_mem_head? hwinner)
            refine .bind hs.gives_duration ?_
            intro duration hduration
            refine .bind (hc.gives_ofSlice hs.start hduration) ?_
            intro window hwindow
            refine .bind (ih hrest shared) ?_
            intro found hfound
            refine .ok ?_
            intro r hr
            obtain ⟨later, hlater, rfl⟩ := Option.map_eq_some_iff.1 hr
            exact List.forall_mem_cons.2 ⟨hwindow, hfound later hlater⟩
        · exact .ok hnone

/-- The windows of a copy plan of moderate segments can be written, and its media are
in the catalogue. -/
theorem gives_plan (hs : ∀ s ∈ segments, s.Moderate k.rule) :
    Gives (fun found => ∀ p ∈ found, (∀ w ∈ p.windows, w.Fits) ∧ p.media ∈ k.sources.media)
      (k.plan segments) := by
  refine .bind (gives_windows hs none) ?_
  intro found hfound
  split
  · next id windows =>
      refine .ok ?_
      intro p hp
      obtain ⟨m, hm, rfl⟩ := Option.map_eq_some_iff.1 hp
      obtain ⟨-, husable⟩ := usable_eq_some hm
      exact ⟨hfound _ rfl, List.mem_reverse.1 (List.mem_of_find?_eq_some husable.found)⟩
  · refine .ok ?_
    simp only [Option.mem_def, reduceCtorEq, false_implies, implies_true]

end CopyContext

end Montage
