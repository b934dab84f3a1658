import Montage.Export.ConcatScript
import Montage.Proofs.Export.Copy
import Montage.Proofs.Export.Graph
import Montage.Proofs.Export.Neutral
import Montage.Proofs.Number.Fits

/-!
Rendering what could be copied.

A copy plan and a filter graph are made in different ways from the same segments.  Where there is a
copy plan the graph changes nothing either: it cuts the windows of the plan out of the one source
and only fits them into the frame.
-/

namespace Montage

/-- The first and the last time of a window, as they are written. -/
def Window.texts (w : Window) : Except Fault (String × String) := do
  return (← w.start.seconds, ← w.stop.seconds)

theorem Window.speed_of_ofSlice {c : Clip} {start duration : Number} {w : Window}
    (h : Window.ofSlice c start duration = .ok w) : w.speed = c.playSpeed := by
  simp only [Window.ofSlice, bind_eq_ok] at h
  obtain ⟨offset, -, length, -, h⟩ := h
  split at h
  all_goals
    simp only [bind_eq_ok] at h
    obtain ⟨_, -, h⟩ := h
  · obtain ⟨_, -, _, -, _, -, first, -, stop, -, h⟩ := h
    obtain rfl := Except.ok.inj h
    rfl
  · obtain ⟨first, -, stop, -, h⟩ := h
    obtain rfl := Except.ok.inj h
    rfl

namespace CopyPlan

/-- The times of the windows, as they are written. -/
def texts (plan : CopyPlan) : Except Fault (List (String × String)) :=
  plan.windows.mapM Window.texts

/-- The directives that copy a window of these times. -/
def directives (plan : CopyPlan) (text : String × String) : List String :=
  ["file 'file:" ++ ConcatScript.path plan.media.name ++ "'", "inpoint " ++ text.1,
    "outpoint " ++ text.2]

theorem windowLines_eq (plan : CopyPlan) (w : Window) :
    ConcatScript.windowLines (ConcatScript.path plan.media.name) w =
      w.texts.map plan.directives := by
  simp only [ConcatScript.windowLines, Window.texts, bind, Except.bind]
  rcases w.start.seconds with f | start
  · rfl
  · rcases w.stop.seconds with f | stop <;> rfl

/-- A script is written when the times of all windows are. -/
theorem scriptLines_eq (plan : CopyPlan) :
    plan.scriptLines = plan.texts.map fun texts => texts.flatMap plan.directives := by
  have hlines : ∀ ws : List Window,
      ws.mapM (ConcatScript.windowLines (ConcatScript.path plan.media.name)) =
        (ws.mapM Window.texts).map (List.map plan.directives) := by
    intro ws
    induction ws with
    | nil => rfl
    | cons w rest ih =>
        simp only [List.mapM_cons, windowLines_eq, ih, bind, Except.bind]
        rcases w.texts with f | t
        · rfl
        · rcases rest.mapM Window.texts with f | ts <;> rfl
  rw [scriptLines, hlines, texts]
  rcases plan.windows.mapM Window.texts with f | ts <;> rfl

end CopyPlan

namespace GraphContext

variable {g : GraphContext} {m : Media} {s : Segment} {c : Clip} {d : Number}
  {w : Window}

/-- The picture of a window of the first input, fitted into the frame. -/
def cutPicture (g : GraphContext) (text : String × String) (place : Nat) : Chain where
  inputs := [Channel.video.pad 0]
  stages := [.trim text.1 text.2, .setPts Stage.fromZero,
    .scale (.int g.width) (.int g.height), .pad (.int g.width) (.int g.height),
    .setSar, .pixelFormat "yuv420p"]
  outputs := [Channel.video.label place]

/-- The sound of a window of the first input. -/
def cutSound (text : String × String) (place : Nat) : Chain where
  inputs := [Channel.audio.pad 0]
  stages := [.audioTrim text.1 text.2, .audioSetPts Stage.fromZero]
  outputs := [Channel.audio.label place]

/-- A segment that plays a window of a media item on both channels, as it is. -/
structure Untouched (g : GraphContext) (m : Media) (s : Segment) (c : Clip)
    (d : Number) (w : Window) : Prop where
  winner : ∀ channel, s.winner? channel = some c
  duration : s.duration = .ok d
  lasts : d.le 0 = false
  window : Window.ofSlice c s.start d = .ok w
  media : g.mediaFor? c = some m
  stream : ∀ channel, g.hasStream channel m = true
  speed : c.playSpeed.eq 1 = true
  forward : c.reversed = false
  unmuted : c.muted = false
  neutral : (g.rule c).isNeutral = true

namespace Untouched

theorem sourcePad_eq (channel : Channel) :
    sourcePad [m] m channel.letter = channel.pad 0 := by
  simp [sourcePad, Channel.pad]

theorem videoChain_eq (h : g.Untouched m s c d w) (place : Nat) :
    g.videoChain [m] s (Channel.video.label place) =
      w.texts.map fun t => g.cutPicture t place := by
  have hstream : m.hasVideo (g.sources.infoOf m) = true := h.stream .video
  have hneutral := h.neutral
  simp only [Effective.isNeutral, Bool.and_eq_true] at hneutral
  have hspeed : w.speed.eq 1 = true := by
    rw [Window.speed_of_ofSlice h.window]
    exact h.speed
  have hpad : sourcePad [m] m "v" = Channel.video.pad 0 := sourcePad_eq .video
  simp only [videoChain, h.winner, Option.bind_some, h.media, Option.map_some,
    hstream, ↓reduceIte, picture, h.duration, h.window, h.forward, hspeed,
    videoEffects_of_neutral hneutral.1.1, stageIf, Bool.not_true, Bool.false_eq_true,
    Window.texts, hpad, bind, Except.bind]
  rcases w.start.seconds with f | start
  · rfl
  · rcases w.stop.seconds with f | stop
    · rfl
    · rfl

theorem audioChain_eq (h : g.Untouched m s c d w)
    (hclicks : g.settings.fadesClicks = false) (place : Nat) :
    g.audioChain [m] s (Channel.audio.label place) =
      w.texts.map fun t => cutSound t place := by
  have hstream : m.hasAudio (g.sources.infoOf m) = true := h.stream .audio
  have hneutral := h.neutral
  simp only [Effective.isNeutral, Bool.and_eq_true] at hneutral
  have hspeed : w.speed.eq 1 = true := by
    rw [Window.speed_of_ofSlice h.window]
    exact h.speed
  have hpitch : ((g.rule c).audio.amount .pitch).isZero = true := by
    exact FilterSet.amount_eq hneutral.1.2 (mem_audioKeys .pitch)
  have hpad : sourcePad [m] m "a" = Channel.audio.pad 0 := sourcePad_eq .audio
  simp only [audioChain, h.winner, Option.bind_some, h.media, Option.map_some,
    hstream, ↓reduceIte, sound, h.duration, h.window, h.forward, h.unmuted,
    hneutral.2, hclicks, tempoStages_of_normal hspeed hpitch,
    audioEffects_of_neutral hneutral.1.2, Bool.false_eq_true, Window.texts, hpad, bind,
    Except.bind]
  rcases w.start.seconds with f | start
  · rfl
  · rcases w.stop.seconds with f | stop
    · rfl
    · rfl

end Untouched

/-- A segment is kept when it plays a window as it is. -/
theorem Untouched.keeps (h : g.Untouched m s c d w) : g.Keeps s := by
  refine ⟨⟨d, h.duration, h.lasts⟩, ?_⟩
  intro channel c' hc'
  obtain rfl : c = c' := Option.some.inj ((h.winner channel).symm.trans hc')
  exact ⟨m, mediaFor?_eq_some.1 h.media⟩

/-- Segments that play windows of one media item as they are, one window each. -/
abbrev AllUntouched (g : GraphContext) (m : Media) :
    List Segment → List Window → Prop :=
  List.Forall₂ fun s w => ∃ c d, g.Untouched m s c d w

variable {segments : List Segment} {ws : List Window}

theorem AllUntouched.keeps (h : g.AllUntouched m segments ws) :
    ∀ s ∈ segments, g.Keeps s := by
  induction h with
  | nil => exact List.forall_mem_nil _
  | cons hs _ ih =>
      obtain ⟨c, d, hs⟩ := hs
      exact List.forall_mem_cons.2 ⟨hs.keeps, ih⟩

theorem AllUntouched.foldlM_inputs (h : g.AllUntouched m segments ws)
    {inputs : List Media} (hinputs : inputs = [m] ∨ inputs = [] ∧ segments ≠ []) :
    segments.foldlM (fun inputs s => do
      return if ← g.keeps s then g.addInputs inputs (winners s) else inputs) inputs =
        .ok [m] := by
  induction h generalizing inputs with
  | nil =>
      obtain rfl | ⟨-, hne⟩ := hinputs
      · rfl
      · exact absurd rfl hne
  | @cons s w rest ws hs _ ih =>
      obtain ⟨c, d, hs⟩ := hs
      have hwinners : winners s = [c, c] := by
        simp only [winners, hs.winner, Option.toList_some, List.singleton_append]
      have hadded : g.addInputs inputs [c, c] = [m] := by
        rcases hinputs with rfl | ⟨rfl, -⟩ <;>
          simp [addInputs, hs.media]
      rw [List.foldlM_cons, keeps_iff.2 hs.keeps]
      simp only [bind, Except.bind, pure, Except.pure, ↓reduceIte, hwinners, hadded]
      exact ih (Or.inl rfl)

theorem AllUntouched.any_audioGuessed (h : g.AllUntouched m segments ws)
    (hne : segments ≠ []) :
    segments.any g.audioGuessed = Media.audioInferred (g.sources.infoOf m) := by
  induction h with
  | nil => exact absurd rfl hne
  | @cons s w rest ws hs _ ih =>
      obtain ⟨c, d, hs⟩ := hs
      have hfirst : g.audioGuessed s = Media.audioInferred (g.sources.infoOf m) := by
        simp only [audioGuessed, hs.winner, Option.bind_some, hs.media]
      rw [List.any_cons, hfirst]
      by_cases hrest : rest = []
      · rw [hrest, List.any_nil, Bool.or_false]
      · rw [ih hrest, Bool.or_self]

/-- What is built for segments that play windows as they are. -/
def cutChains (g : GraphContext) :
    Nat → List Segment → List (String × String) → List (Nat × Segment × Chain × Chain)
  | place, s :: rest, t :: ts =>
      (place, s, g.cutPicture t place, cutSound t place) ::
        g.cutChains (place + 1) rest ts
  | _, _, _ => []

theorem AllUntouched.segmentChains_eq (h : g.AllUntouched m segments ws)
    (hclicks : g.settings.fadesClicks = false) (place : Nat) :
    g.segmentChains [m] place segments =
      (ws.mapM Window.texts).map (g.cutChains place segments) := by
  induction h generalizing place with
  | nil => rfl
  | @cons s w rest ws hs _ ih =>
      obtain ⟨c, d, hs⟩ := hs
      have hvideo : g.videoChain [m] s s!"v{place}" = _ := hs.videoChain_eq place
      have haudio : g.audioChain [m] s s!"a{place}" = _ :=
        hs.audioChain_eq hclicks place
      simp only [segmentChains, keeps_iff.2 hs.keeps, hvideo, haudio, ih,
        List.mapM_cons, bind, Except.bind, ↓reduceIte]
      rcases w.texts with f | t
      · rfl
      · rcases ws.mapM Window.texts with f | ts <;> rfl

/-- The graph that cuts the windows of a copy plan out of its source. -/
def cutGraph (g : GraphContext) (plan : CopyPlan) (texts : List (String × String)) :
    GraphPlan where
  inputs := [plan.media]
  chains := texts.zipIdx.flatMap (fun t => [g.cutPicture t.1 t.2, cutSound t.1 t.2]) ++
    [lastChain (List.range texts.length)]
  warning := plan.warning

theorem cutChains_spec (g : GraphContext) (place : Nat) {segments : List Segment}
    {texts : List (String × String)} (h : segments.length = texts.length) :
    (g.cutChains place segments texts).flatMap (fun b => [b.2.2.1, b.2.2.2]) =
        (texts.zipIdx place).flatMap
          (fun t => [g.cutPicture t.1 t.2, cutSound t.1 t.2]) ∧
      (g.cutChains place segments texts).map (·.1) =
        List.range' place texts.length ∧
      (g.cutChains place segments texts).map (·.2.1) = segments := by
  induction segments generalizing place texts with
  | nil =>
      obtain rfl := List.length_eq_zero_iff.1 h.symm
      exact ⟨rfl, rfl, rfl⟩
  | cons s rest ih =>
      obtain ⟨t, ts, rfl⟩ := List.exists_cons_of_length_eq_add_one h.symm
      obtain ⟨hchains, hplaces, hsegments⟩ := ih (place + 1) (Nat.succ.inj h)
      refine ⟨?_, ?_, ?_⟩
      · simp only [cutChains, List.flatMap_cons, hchains, List.zipIdx_cons]
      · simp only [cutChains, List.map_cons, hplaces, List.length_cons,
          List.range'_succ]
      · simp only [cutChains, List.map_cons, hsegments]

section CopyPlan

variable {plan : CopyPlan}
  (hplan : CopyContext.plan ⟨g.sources, g.rule⟩ segments = .ok (some plan))
include hplan

theorem segments_ne_nil_of_copyPlan : segments ≠ [] := by
  obtain ⟨-, hwindows, -⟩ := CopyContext.plan_eq_some hplan
  rintro rfl
  simp [CopyContext.windows] at hwindows

/-- What is copied is played as it is. -/
theorem allUntouched_of_copyPlan
    (hclips : Coherent (segments.flatMap Segment.clips)) :
    g.AllUntouched plan.media segments plan.windows := by
  obtain ⟨husable, hwindows, -⟩ := CopyContext.plan_eq_some hplan
  have hwithin := Segment.within_of_subset (List.Subset.refl (segments.flatMap
    Segment.clips))
  have hall := (List.forall₂_and_left segments plan.windows).2 ⟨fun s hs =>
    And.intro (hwithin s hs) ((CopyContext.windows_cases hwindows).1 s hs),
    CopyContext.windows_forall₂ hwindows⟩
  refine hall.imp ?_
  rintro s w ⟨⟨hin, hcopies, hmedia⟩, c, d, hc, hd, hw⟩
  obtain ⟨d', hd', hlasts⟩ := hcopies.lasts
  obtain rfl : d = d' := Except.ok.inj (hd.symm.trans hd')
  have hvideo : c ∈ s.video := List.mem_of_head? hc
  have haudio : s.winner? .audio = some c := by
    -- the clip heard has the id of the clip seen
    have hids := congrArg List.head? hcopies.same_ids
    rw [List.head?_map, List.head?_map, show s.video.head? = some c from hc,
      Option.map_some] at hids
    obtain ⟨c', hc', hid⟩ := Option.map_eq_some_iff.1 hids.symm
    rw [← hclips c' (hin .audio c' (List.mem_of_head? hc')) c (hin .video c hvideo) hid]
    exact hc'
  obtain ⟨hspeed, hforward, hunmuted, -, hneutral⟩ :=
    CopyContext.copiesClip_iff.1 (hcopies.clips c hvideo)
  have hfound : g.sources.mediaOf? c = some plan.media := by
    rw [Sources.mediaOf?, ← Option.some.inj (hmedia c hvideo)]
    exact husable.found
  refine ⟨c, d, ?_, hd, hlasts, hw, mediaFor?_eq_some.2 ⟨hfound, husable.online⟩, ?_,
    hspeed, hforward, hunmuted, hneutral⟩
  · intro channel
    cases channel
    · exact hc
    · exact haudio
  · intro channel
    cases channel
    · exact husable.video
    · exact husable.audio

/-- The graph of what could be copied is written from the times of the copy
plan, and is none only when those cannot be written. -/
theorem plan_eq_of_copyPlan (hclicks : g.settings.fadesClicks = false)
    (hclips : Coherent (segments.flatMap Segment.clips)) :
    g.plan segments = plan.texts.map fun texts => some (g.cutGraph plan texts) := by
  have hall := allUntouched_of_copyPlan hplan hclips
  have hne := segments_ne_nil_of_copyPlan hplan
  obtain ⟨-, -, hwarning⟩ := CopyContext.plan_eq_some hplan
  have hinputs : g.inputs segments = .ok [plan.media] :=
    hall.foldlM_inputs (Or.inr ⟨rfl, hne⟩)
  rw [GraphContext.plan, hinputs]
  simp only [bind, Except.bind, List.isEmpty_cons, Bool.false_eq_true, ↓reduceIte,
    hall.segmentChains_eq hclicks, CopyPlan.texts]
  rcases htexts : plan.windows.mapM Window.texts with f | texts
  · rfl
  · have hlength : segments.length = texts.length :=
      hall.length_eq.trans (forall₂_of_mapM htexts).length_eq
    obtain ⟨hchains, hplaces, hsegments⟩ := g.cutChains_spec 0 hlength
    have hkept : (g.cutChains 0 segments texts).isEmpty = false := by
      rw [List.isEmpty_eq_false_iff]
      rintro hnil
      rw [hnil] at hsegments
      exact hne hsegments.symm
    have hguessed : ((g.cutChains 0 segments texts).any fun k => g.audioGuessed k.2.1) =
        plan.warning := by
      have hany := List.any_map (f := fun k => k.2.1) (p := g.audioGuessed)
        (l := g.cutChains 0 segments texts)
      rw [hsegments, hall.any_audioGuessed hne, ← hwarning] at hany
      exact hany.symm
    simp only [Except.map, hkept, Bool.false_eq_true, ↓reduceIte, hchains, hplaces,
      hguessed, cutGraph, List.range_eq_range']
    rfl

/-- The two ways to export agree.  Where there is a copy plan, the graph of the same
segments has its media as the only input and keeps every segment, and each of its
chains cuts out a window of the plan and does no more than to fit it into the
frame. -/
theorem graph_of_copyPlan (hclicks : g.settings.fadesClicks = false)
    (hclips : Coherent (segments.flatMap Segment.clips))
    (hfits : ∀ w ∈ plan.windows, w.start.Fits ∧ w.stop.Fits) :
    ∃ texts graph, g.plan segments = .ok (some graph) ∧
      plan.scriptLines = .ok (texts.flatMap plan.directives) ∧
      List.Forall₂ (fun (w : Window) t => w.start.seconds = .ok t.1 ∧
        w.stop.seconds = .ok t.2) plan.windows texts ∧
      texts.length = segments.length ∧ (∀ s ∈ segments, g.Keeps s) ∧
      graph.inputs = [plan.media] ∧ graph.warning = plan.warning ∧
      graph.chains =
        texts.zipIdx.flatMap (fun t => [g.cutPicture t.1 t.2, cutSound t.1 t.2]) ++
          [lastChain (List.range segments.length)] := by
  have hall := allUntouched_of_copyPlan hplan hclips
  have hgraph := plan_eq_of_copyPlan hplan hclicks hclips
  obtain ⟨texts, htexts⟩ : ∃ texts, plan.texts = .ok texts := by
    refine exists_mapM ?_
    intro w hw
    obtain ⟨start, hstart⟩ := Number.exists_seconds (hfits w hw).1
    obtain ⟨stop, hstop⟩ := Number.exists_seconds (hfits w hw).2
    exact exists_bind hstart (exists_bind hstop ⟨_, rfl⟩)
  have hwindows := forall₂_of_mapM htexts
  have hlength : texts.length = segments.length :=
    hwindows.length_eq.symm.trans hall.length_eq.symm
  rw [htexts] at hgraph
  refine ⟨texts, g.cutGraph plan texts, hgraph, ?_, ?_, hlength, ?_, rfl, rfl, ?_⟩
  · rw [plan.scriptLines_eq, htexts]
    rfl
  · refine hwindows.imp ?_
    intro w t ht
    simp only [Window.texts, bind_eq_ok] at ht
    obtain ⟨start, hstart, stop, hstop, ht⟩ := ht
    obtain rfl := Except.ok.inj ht
    exact ⟨hstart, hstop⟩
  · exact hall.keeps
  · rw [cutGraph, hlength]

end CopyPlan

end GraphContext

/-- A film in two halves, rendered into a small frame without fades. -/
def smallFrame : GraphContext :=
  ⟨songAndFilm, { deClick := .bool false }, Defaults.effective {}, 640, 360⟩

theorem graph_of_halves :
    smallFrame.settings.fadesClicks = false ∧
      Coherent ((firstSegments ++ secondSegments).flatMap Segment.clips) ∧
      ∃ plan, CopyContext.plan ⟨smallFrame.sources, smallFrame.rule⟩
          (firstSegments ++ secondSegments) = .ok (some plan) ∧
        (∀ w ∈ plan.windows, w.start.Fits ∧ w.stop.Fits) ∧
        ∃ texts : List (String × String), ∃ graph,
          smallFrame.plan (firstSegments ++ secondSegments) = .ok (some graph) ∧
            plan.scriptLines = .ok (texts.flatMap plan.directives) ∧
            graph.inputs = [plan.media] ∧
            graph.chains = texts.zipIdx.flatMap (fun t =>
              [smallFrame.cutPicture t.1 t.2, GraphContext.cutSound t.1 t.2]) ++
                [GraphContext.lastChain [0, 1, 2]] := by
  have hclicks : smallFrame.settings.fadesClicks = false := by decide +kernel
  have hhalves : Coherent [halves.1, halves.2] := coherent_of_nodup (by decide)
  have hclips : Coherent
      ((firstSegments ++ secondSegments).flatMap Segment.clips) :=
    hhalves.mono (by simp [firstSegments, secondSegments, Segment.clips])
  have hcopied : (CopyContext.plan ⟨smallFrame.sources, smallFrame.rule⟩
      (firstSegments ++ secondSegments)).map (Option.map CopyPlan.windows) =
        .ok (some [⟨0, 500, 1⟩, ⟨500, 1000, 1⟩, ⟨1000, 2000, 1⟩]) := by
    decide +kernel
  obtain ⟨plan, hplan, hwindows⟩ := exists_of_map_eq hcopied
  have hfits : ∀ w ∈ plan.windows, w.start.Fits ∧ w.stop.Fits := by
    have hfitsInt : ∀ n ∈ [0, 500, 1000, 2000], (Number.int n).Fits := by
      intro n hn
      refine Number.fits_int ?_
      revert n
      decide +kernel
    rw [hwindows]
    simp only [List.forall_mem_cons, List.not_mem_nil, false_implies, implies_true,
      and_true] at hfitsInt ⊢
    obtain ⟨h0, h1, h2, h3⟩ := hfitsInt
    exact ⟨⟨h0, h1⟩, ⟨h1, h2⟩, ⟨h2, h3⟩⟩
  obtain ⟨texts, graph, hgraph, hscript, -, -, -, hinputs, -, hchains⟩ :=
    GraphContext.graph_of_copyPlan hplan hclicks hclips hfits
  exact ⟨hclicks, hclips, plan, hplan, hfits, texts, graph, hgraph, hscript, hinputs,
    hchains⟩

end Montage
