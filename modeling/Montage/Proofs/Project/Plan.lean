import Montage.Project.Plan
import Montage.Proofs.Export.Match
import Montage.Proofs.Timeline.Timecode
import Montage.Proofs.Timeline.Winner

/-!
What plans show, and when there is none.

Of an outcome a plan shows the segments and the flags; all else in it comes from the clips and the
settings that are there.  An outcome that was compiled without a fault may still have no plan: its
times may have no timecode, and the clips and settings may have changed since.
-/

namespace Montage

/-- The segments of an outcome. -/
def playedSegments (result : Option ExportResult) : List Segment :=
  (result.map (·.segments)).getD []

/-- The bounds of a segment. -/
def Segment.bounds (s : Segment) : List Number := [s.start, s.stop]

/-- What plans show of a segment: its bounds, and the ids of its runs. -/
def Segment.shown (s : Segment) : Number × Number × List String × List String :=
  (s.start, s.stop, s.video.map Clip.id, s.audio.map Clip.id)

/-- The bounds and the ids of a planned segment. -/
def PlannedSegment.shown (s : PlannedSegment) : Number × Number × List String × List String :=
  (s.start, s.stop, s.video, s.audio)

/-- The number has a timecode. -/
def Number.Timed (a : Number) : Prop := ∀ f, ¬a.Untimed f

namespace Plan

/-- A plan shows an outcome beside clips and settings. -/
structure Shows (clips : List Clip) (settings : ExportSettings) (result : Option ExportResult)
    (p : Plan) : Prop where
  segments : p.segments.map PlannedSegment.shown = (playedSegments result).map Segment.shown
  timecodes : ∀ s ∈ p.segments,
    timecode s.start = .ok s.startTimecode ∧ timecode s.stop = .ok s.stopTimecode
  copied : p.copied = result.any (·.copied)
  warning : p.warning = result.any (·.warning)
  blocked : p.blocked = result.any (·.blocked)
  duration : timelineDuration clips = .ok p.duration
  preset : ∃ id, matchPreset settings = .ok id ∧ p.preset = if id = "" then "custom" else id
  output : p.output = settings.output

/-- Why there is no plan of an outcome: the first of its parts that cannot be made. -/
inductive Fails (clips : List Clip) (settings : ExportSettings) (result : Option ExportResult) :
    Fault → Prop where
  /-- A bound of a segment has no timecode. -/
  | bound {before after : List Number} {a : Number} {f : Fault}
      (hbounds : (playedSegments result).flatMap Segment.bounds = before ++ a :: after)
      (hbefore : ∀ b ∈ before, b.Timed) (h : a.Untimed f) : Fails clips settings result f
  /-- A clip has no end. -/
  | stop (hbounds : ∀ a ∈ (playedSegments result).flatMap Segment.bounds, a.Timed)
      {c : Clip} (hc : c ∈ clips) (h : c.start.Clash c.duration) :
      Fails clips settings result .integerTooLarge
  /-- The settings cannot be compared with a preset. -/
  | preset (hbounds : ∀ a ∈ (playedSegments result).flatMap Segment.bounds, a.Timed)
      (hstops : ∀ c ∈ clips, ¬c.start.Clash c.duration) {p : Preset} (hp : p ∈ Preset.all)
      {f : Fault} (h : p.Stuck settings f) : Fails clips settings result f
  /-- The output is named after a format that cannot be written. -/
  | output (hbounds : ∀ a ∈ (playedSegments result).flatMap Segment.bounds, a.Timed)
      (hstops : ∀ c ∈ clips, ¬c.start.Clash c.duration)
      (hpresets : ∀ p ∈ Preset.all, ∀ f, ¬p.Stuck settings f)
      (hfile : settings.outputFile.isVoid = true)
      (hlong : (settings.format.orElse (.text "mp4")).isTooLong = true) :
      Fails clips settings result .digitsWritten

/-- What the call for a plan answers for an outcome. -/
structure Answers (clips : List Clip) (settings : ExportSettings) (result : Option ExportResult)
    (answer : Except Fault Plan) : Prop where
  shows : ∀ p, answer = .ok p → p.Shows clips settings result
  fails_iff : ∀ f, answer = .error f ↔ Fails clips settings result f

end Plan

section Parts

variable {f : Fault}

theorem exists_timecode_iff {a : Number} : (∃ text, timecode a = .ok text) ↔ a.Timed := by
  rw [exists_ok_iff]
  exact forall_congr' fun f => not_congr timecode_eq_error_iff

theorem PlannedSegment.ofSegment_eq_ok {s : Segment} {g : PlannedSegment}
    (h : ofSegment s = .ok g) : g.shown = s.shown ∧
      timecode g.start = .ok g.startTimecode ∧ timecode g.stop = .ok g.stopTimecode := by
  obtain ⟨start, hstart, h⟩ := bind_eq_ok.1 h
  obtain ⟨stop, hstop, h⟩ := bind_eq_ok.1 h
  obtain rfl := Except.ok.inj h
  exact ⟨rfl, hstart, hstop⟩

/-- Segments are planned just when all of their bounds have timecodes. -/
theorem PlannedSegment.mapM_ofSegment_eq_error_iff {l : List Segment} :
    l.mapM ofSegment = .error f ↔ (l.flatMap Segment.bounds).mapM timecode = .error f := by
  induction l with
  | nil => simp [pure, Except.pure]
  | cons s rest ih =>
      rw [List.mapM_cons, List.flatMap_cons, List.mapM_append, ofSegment, Segment.bounds,
        List.mapM_cons, List.mapM_cons, List.mapM_nil]
      rcases timecode s.start with g | start
      · simp [bind, Except.bind]
      rcases timecode s.stop with g | stop
      · simp [bind, Except.bind]
      revert ih
      rcases rest.mapM ofSegment with g | planned <;>
        rcases (rest.flatMap Segment.bounds).mapM timecode with g' | texts <;>
        simp [bind, Except.bind, pure, Except.pure]

theorem PlannedSegment.exists_mapM_ofSegment_iff {l : List Segment} :
    (∃ planned, l.mapM ofSegment = .ok planned) ↔ ∀ a ∈ l.flatMap Segment.bounds, a.Timed := by
  rw [exists_ok_iff, forall_congr' fun f => not_congr mapM_ofSegment_eq_error_iff, ← exists_ok_iff]
  constructor
  · rintro ⟨texts, htexts⟩ a ha
    exact exists_timecode_iff.1 (exists_of_mapM htexts a ha)
  · exact fun h => exists_mapM fun a ha => exists_timecode_iff.2 (h a ha)

theorem timelineDuration_eq_error_iff {clips : List Clip} :
    timelineDuration clips = .error f ↔
      f = .integerTooLarge ∧ ∃ c ∈ clips, c.start.Clash c.duration := by
  have honly : OnlyTooLarge (timelineDuration clips) := by
    have hstop : ∀ c : Clip, OnlyTooLarge c.stop := fun c => .add c.start c.duration
    refine .bind (.mapM hstop clips) fun stops => ?_
    cases stops <;> exact .ok _
  have hexists : (∃ d, timelineDuration clips = .ok d) ↔
      ∀ c ∈ clips, ¬c.start.Clash c.duration := by
    constructor
    · rintro ⟨d, hd⟩ c hc
      obtain ⟨stops, hstops, -⟩ := bind_eq_ok.1 hd
      exact Number.exists_add_iff.1 (exists_of_mapM hstops c hc)
    · intro h
      obtain ⟨stops, hstops⟩ := exists_mapM fun c hc => Number.exists_add_iff.2 (h c hc)
      exact exists_timelineDuration hstops
  rw [honly.eq_error_iff, hexists]
  simp only [not_forall, not_not, exists_prop]

theorem ExportSettings.writtenOutput_eq_error_iff {s : ExportSettings} :
    s.writtenOutput = .error f ↔ f = .digitsWritten ∧ s.outputFile.isVoid = true ∧
      (s.format.orElse (.text "mp4")).isTooLong = true := by
  rw [writtenOutput, ← Bool.and_eq_true_iff]
  split
  · next h => simp [h, eq_comm]
  · next h => simp [h]

theorem ExportSettings.writtenOutput_eq_ok {s : ExportSettings} {d : Document}
    (h : s.writtenOutput = .ok d) : d = s.output := by
  rw [writtenOutput] at h
  split at h
  · exact nomatch h
  · exact (Except.ok.inj h).symm

end Parts

namespace Plan

variable {clips : List Clip} {settings : ExportSettings} {result : Option ExportResult} {f : Fault}

theorem shows_of_ofResult {p : Plan} (h : ofResult clips settings result = .ok p) :
    p.Shows clips settings result := by
  obtain ⟨segments, hsegments, h⟩ := bind_eq_ok.1 h
  obtain ⟨duration, hduration, h⟩ := bind_eq_ok.1 h
  obtain ⟨id, hid, h⟩ := bind_eq_ok.1 h
  obtain ⟨output, houtput, h⟩ := bind_eq_ok.1 h
  obtain rfl := Except.ok.inj h
  constructor
  case segments =>
    rw [← List.forall₂_eq_eq_eq, List.forall₂_map_left_iff, List.forall₂_map_right_iff]
    exact ((forall₂_of_mapM hsegments).imp
      fun _ _ hs => (PlannedSegment.ofSegment_eq_ok hs).1).flip
  case timecodes =>
    exact Yields.mapM (fun _ _ _ hs => (PlannedSegment.ofSegment_eq_ok hs).2) segments hsegments
  case copied => rfl
  case warning => rfl
  case blocked => rfl
  case duration => exact hduration
  case preset =>
    refine ⟨id, hid, ?_⟩
    simp only [presetText, String.isEmpty_iff]
  case output => exact ExportSettings.writtenOutput_eq_ok houtput

/-- The parts of a plan are made one after the other. -/
theorem ofResult_eq_error_iff :
    ofResult clips settings result = .error f ↔ Fails clips settings result f := by
  have hpresets : (∃ id, matchPreset settings = .ok id) ↔
      ∀ p ∈ Preset.all, ∀ g, ¬p.Stuck settings g := by
    simp only [exists_ok_iff, Preset.matchPreset_eq_error_iff, not_exists, not_and]
    exact ⟨fun h p hp g => h g p hp, fun h g p hp => h p hp g⟩
  have hstops : (∃ d, timelineDuration clips = .ok d) ↔
      ∀ c ∈ clips, ¬c.start.Clash c.duration := by
    simp only [exists_ok_iff, timelineDuration_eq_error_iff, not_and, not_exists]
    exact ⟨fun h c hc => h _ rfl c hc, fun h g _ c hc => h c hc⟩
  constructor
  · intro h
    rcases bind_eq_error.1 h with h | ⟨planned, hplanned, h⟩
    · obtain ⟨before, a, after, hbounds, hbefore, ha⟩ :=
        mapM_eq_error.1 (PlannedSegment.mapM_ofSegment_eq_error_iff.1 h)
      exact .bound hbounds (fun b hb => exists_timecode_iff.1 (hbefore b hb))
        (timecode_eq_error_iff.1 ha)
    have hbounds := PlannedSegment.exists_mapM_ofSegment_iff.1 ⟨planned, hplanned⟩
    rcases bind_eq_error.1 h with h | ⟨duration, hduration, h⟩
    · obtain ⟨rfl, c, hc, hclash⟩ := timelineDuration_eq_error_iff.1 h
      exact .stop hbounds hc hclash
    have hclips := hstops.1 ⟨duration, hduration⟩
    rcases bind_eq_error.1 h with h | ⟨id, hid, h⟩
    · obtain ⟨p, hp, hstuck⟩ := Preset.matchPreset_eq_error_iff.1 h
      exact .preset hbounds hclips hp hstuck
    rcases bind_eq_error.1 h with h | ⟨output, -, h⟩
    · obtain ⟨rfl, hfile, hlong⟩ := ExportSettings.writtenOutput_eq_error_iff.1 h
      exact .output hbounds hclips (hpresets.1 ⟨id, hid⟩) hfile hlong
    · exact nomatch h
  · intro h
    cases h with
    | bound hbounds hbefore ha =>
        refine bind_eq_error.2 (Or.inl (PlannedSegment.mapM_ofSegment_eq_error_iff.2 ?_))
        exact mapM_eq_error.2 ⟨_, _, _, hbounds,
          fun b hb => exists_timecode_iff.2 (hbefore b hb), timecode_eq_error_iff.2 ha⟩
    | stop hbounds hc hclash =>
        obtain ⟨planned, hplanned⟩ := PlannedSegment.exists_mapM_ofSegment_iff.2 hbounds
        refine bind_eq_error.2 (Or.inr ⟨planned, hplanned, bind_eq_error.2 (Or.inl ?_)⟩)
        exact timelineDuration_eq_error_iff.2 ⟨rfl, _, hc, hclash⟩
    | preset hbounds hclips hp hstuck =>
        obtain ⟨planned, hplanned⟩ := PlannedSegment.exists_mapM_ofSegment_iff.2 hbounds
        obtain ⟨duration, hduration⟩ := hstops.2 hclips
        refine bind_eq_error.2 (Or.inr ⟨planned, hplanned, bind_eq_error.2
          (Or.inr ⟨duration, hduration, bind_eq_error.2 (Or.inl ?_)⟩)⟩)
        exact Preset.matchPreset_eq_error_iff.2 ⟨_, hp, hstuck⟩
    | output hbounds hclips hstuck hfile hlong =>
        obtain ⟨planned, hplanned⟩ := PlannedSegment.exists_mapM_ofSegment_iff.2 hbounds
        obtain ⟨duration, hduration⟩ := hstops.2 hclips
        obtain ⟨id, hid⟩ := hpresets.2 hstuck
        refine bind_eq_error.2 (Or.inr ⟨planned, hplanned, bind_eq_error.2
          (Or.inr ⟨duration, hduration, bind_eq_error.2
            (Or.inr ⟨id, hid, bind_eq_error.2 (Or.inl ?_)⟩)⟩)⟩)
        exact ExportSettings.writtenOutput_eq_error_iff.2 ⟨rfl, hfile, hlong⟩

theorem answers_ofResult (clips : List Clip) (settings : ExportSettings)
    (result : Option ExportResult) :
    Answers clips settings result (ofResult clips settings result) :=
  ⟨fun _ h => shows_of_ofResult h, fun _ => ofResult_eq_error_iff⟩

end Plan

end Montage
