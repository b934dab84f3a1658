import Montage.Project.Basic
import Montage.Proofs.Project.Plan
import Montage.Proofs.Snapshot.Reading

/-!
Projects that load and those that can be exported.
-/

namespace Montage

/-- Texts and numbers of binary64 can be compared with every preset. -/
theorem Preset.not_stuck {s : ExportSettings} {f : Fault} (hs : s.WellTyped Number.Fits)
    (p : Preset) : ¬p.Stuck s f := by
  rintro (⟨-, hnumbers, -, hlarge⟩ | ⟨-, -, htexts, -, hlong⟩)
  · have hfits : ∀ e ∈ p.numbers s, e.1.IsNumber Number.Fits := by
      simp only [numbers, List.forall_mem_cons, List.not_mem_nil, false_implies, implies_true,
        and_true]
      exact ⟨hs.fps, hs.crf, hs.sampleRate⟩
    rw [hnumbers] at hfits
    obtain ⟨x, hx, hfit⟩ := hfits _ (List.mem_append_right _ List.mem_cons_self)
    obtain rfl := Document.number.inj hx
    exact hlarge hfit
  · have hkinds : ∀ e ∈ p.texts s, e.1.IsText := by
      simp only [texts, List.forall_mem_cons, List.not_mem_nil, false_implies, implies_true,
        and_true]
      exact ⟨hs.videoCodec, hs.videoBitrate, hs.preset, hs.audioCodec, hs.audioBitrate⟩
    rw [htexts] at hkinds
    have hd := hkinds _ (List.mem_append_right _ List.mem_cons_self)
    rw [(hd.orElse (Document.isText_text "")).isTooLong_eq] at hlong
    exact Bool.false_ne_true hlong

namespace Snapshot

variable {s : Snapshot}

/-- The plan of a moderate result can be shown. -/
theorem WellFormed.exists_plan (hs : s.WellFormed) {rule : FilterRule} (h : s.Moderate rule)
    {result : Option ExportResult}
    (hresult : ∀ r ∈ result, ∀ g ∈ r.segments, g.Moderate rule) :
    ∃ plan, Plan.ofResult s.clips s.settings result = .ok plan := by
  have hsettings := writable hs h
  have htimed : ∀ a ∈ (playedSegments result).flatMap Segment.bounds, a.Timed := by
    intro a ha
    obtain ⟨g, hg, hbound⟩ := List.mem_flatMap.1 ha
    rcases result with _ | r
    · exact absurd hg List.not_mem_nil
    have hmoderate := hresult r rfl g hg
    rcases List.mem_pair.1 hbound with rfl | rfl
    · exact exists_timecode_iff.1 (exists_timecode (by decide) hmoderate.start)
    · exact exists_timecode_iff.1 (exists_timecode (by decide) hmoderate.stop)
  rw [exists_ok_iff]
  intro f hf
  cases Plan.ofResult_eq_error_iff.1 hf with
  | bound hbounds _ ha =>
      exact htimed _ (hbounds ▸ List.mem_append_right _ List.mem_cons_self) _ ha
  | stop _ hc hclash => exact Number.exists_add_iff.1 (h.clips _ hc).gives_stop.exists_ok hclash
  | preset _ _ hp hstuck => exact Preset.not_stuck hsettings _ hstuck
  | output _ _ _ _ hlong =>
      rw [(hsettings.format.orElse (Document.isText_text "mp4")).isTooLong_eq] at hlong
      exact Bool.false_ne_true hlong

end Snapshot

/-- A value and the project that it leaves go on to the next step. -/
theorem Working.run_bind {α β : Type} {x : Working α} {f : α → Working β} {p q : Project}
    {a : α} (h : x.run.run p = (.ok a, q)) : (x >>= f).run.run p = (f a).run.run q := by
  change (ExceptT.bindCont f (x.run.run p).1 : StateM Project _).run (x.run.run p).2 = _
  rw [h]
  rfl

namespace Project

variable {p q : Project} {result : Option ExportResult}

theorem compile_run (hnew : p.outcome = none)
    (h : p.snapshot.compile none none = .ok result) :
    compile.run.run p = (.ok result, { p with outcome := some result }) := by
  have hget : (get : Working Project).run.run p = (.ok p, p) := rfl
  have hcompiled : (liftM (p.snapshot.compile none none) : Working _).run.run p =
      (.ok result, p) := by
    rw [h]
    rfl
  rw [compile, Working.run_bind hget]
  simp only [hnew]
  rw [Working.run_bind hcompiled]
  rfl

theorem run_run (h : compile.run.run p = (.ok result, q)) (quiet : Bool) :
    (run quiet).run.run p = (.ok (printout quiet result), q) := by
  rw [run, Working.run_bind h]
  rfl

theorem plan_run (h : compile.run.run p = (.ok result, q)) :
    plan.run.run p = (Plan.ofResult q.snapshot.clips q.settings result, q) := by
  rw [plan, Working.run_bind h]
  rfl

end Project

/-- A snapshot that is read from a document can be compiled, planned and run when its
numbers are moderate. -/
theorem exists_compile_of_moderate {output preset : Option String} {d : Document}
    {s : Snapshot} (hread : Snapshot.ofDocument output preset d = .ok s)
    (h : s.Moderate s.defaults.effective) :
    (∀ infos, ∃ result, s.compile infos none = .ok result) ∧
      (∃ plan, (Project.plan.run.run { snapshot := s }).1 = .ok plan) ∧
      ∀ quiet, ∃ out, ((Project.run quiet).run.run { snapshot := s }).1 = .ok out := by
  have hs := Snapshot.wellFormed_of_ofDocument hread
  obtain ⟨result, hresult, hmoderate⟩ := hs.gives_compile none none h
  have hcompile := Project.compile_run (p := { snapshot := s }) rfl hresult
  obtain ⟨plan, hplan⟩ := hs.exists_plan h hmoderate
  refine ⟨fun infos => (hs.gives_compile infos none h).exists_ok, ⟨plan, ?_⟩, fun quiet => ?_⟩
  · rw [Project.plan_run hcompile]
    exact hplan
  · rw [Project.run_run hcompile]
    exact ⟨_, rfl⟩

/-- A film with its sound shifted by a number of semitones. -/
def shiftedFilm (semitones : Int) : Document := .map [
  (.text "stackcut", .number 1),
  (.text "media", .list [.map [(.text "id", .text "film"),
    (.text "name", .text "film.mp4"), (.text "type", .text "video/mp4")]]),
  (.text "clips", .list [.map [(.text "id", .text "first"),
    (.text "media", .text "film"), (.text "duration", .number 1000),
    (.text "audio_filters", .map [(.text "pitch", .number (.int semitones))])]])]

theorem compile_octaveDown : ∃ s, Snapshot.ofDocument none none (shiftedFilm (-12)) = .ok s ∧
    s.Moderate s.defaults.effective ∧
    (∀ infos, ∃ result, s.compile infos none = .ok result) ∧
      (∃ plan, (Project.plan.run.run { snapshot := s }).1 = .ok plan) ∧
      ∀ quiet, ∃ out, ((Project.run quiet).run.run { snapshot := s }).1 = .ok out := by
  have hread : (Snapshot.ofDocument none none (shiftedFilm (-12))).map (fun s =>
      decide (s.Moderate s.defaults.effective)) = .ok true := by
    decide +kernel
  obtain ⟨s, hs, hmoderate⟩ := exists_of_map_eq_ok hread
  have h := of_decide_eq_true hmoderate
  exact ⟨s, hs, h, exists_compile_of_moderate hs h⟩

/-- Lowered by more octaves than binary64 has powers of two, the film is still read,
but what is read cannot be compiled. -/
theorem compile_deepVoice : ∃ s, Snapshot.ofDocument none none (shiftedFilm (-20000)) = .ok s ∧
    s.compile none none = .error .divisionByZero := by
  have hfault : (Snapshot.ofDocument none none (shiftedFilm (-20000))).map (fun s =>
      (s.compile none none).map fun _ => ()) = .ok (.error .divisionByZero) := by
    decide +kernel
  obtain ⟨s, hs, hfault⟩ := exists_of_map_eq_ok hfault
  exact ⟨s, hs, eq_error_of_map_eq hfault⟩

end Montage
