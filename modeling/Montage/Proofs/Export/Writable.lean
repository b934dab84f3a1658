import Montage.Proofs.Export.Moderate

/-!
Commands that can be written.

A command is written from settings whose values are of the right kind: texts for codecs, formats
and names, numbers for rates.
-/

namespace Montage

namespace Document

/-- The value is a text. -/
def IsText (d : Document) : Prop := ∃ s, d = .text s

variable {d e : Document}

theorem isText_text (s : String) : (Document.text s).IsText := ⟨s, rfl⟩

theorem IsText.orElse (h : d.IsText) (he : e.IsText) : (d.orElse e).IsText := by
  rw [Document.orElse]
  split
  · exact he
  · exact h

/-- A text has no numbers in it. -/
theorem IsText.isTooLong_eq (h : d.IsText) : d.isTooLong = false := by
  obtain ⟨s, rfl⟩ := h
  simp only [isTooLong]

theorem IsText.exists_holds (h : d.IsText) (part : String) :
    ∃ found, d.holds part = .ok found := by
  obtain ⟨s, rfl⟩ := h
  exact ⟨_, rfl⟩

end Document

open Document

theorem exists_usesRateFactor {codec : Document} (h : codec.IsText) :
    ∃ uses, usesRateFactor codec = .ok uses := by
  have hname := h.orElse (isText_text "")
  obtain ⟨first, hfirst⟩ := hname.exists_holds "264"
  refine exists_bind hfirst ?_
  split
  · exact ⟨_, rfl⟩
  · exact hname.exists_holds "265"

theorem exists_containerFlags {format : Document} (h : format.IsText) :
    ∃ flags, containerFlags format = .ok flags := by
  obtain ⟨s, hs⟩ := h.orElse (isText_text "")
  rw [containerFlags, hs]
  exact ⟨_, rfl⟩

namespace Words

/-- All words are texts. -/
def AllText (words : Words) : Prop := ∀ d ∈ words, d.IsText

variable {words more : Words}

theorem AllText.append (h : AllText words) (hmore : AllText more) :
    AllText (words ++ more) :=
  List.forall_mem_append.2 ⟨h, hmore⟩

theorem allText_ofTexts (texts : List String) : AllText (.ofTexts texts) := by
  intro d hd
  obtain ⟨s, -, rfl⟩ := List.mem_map.1 hd
  exact isText_text s

theorem allText_flagFor (flag : String) {value : Document} (h : value.IsText) :
    AllText (flagFor flag value) := by
  rw [flagFor]
  split
  · exact List.forall_mem_nil _
  · exact List.forall_mem_cons.2 ⟨isText_text flag, List.forall_mem_singleton.2 h⟩

theorem AllText.exists_texts (h : AllText words) (place : Nat) :
    ∃ texts, words.texts place = .ok texts := by
  induction words generalizing place with
  | nil => exact ⟨[], rfl⟩
  | cons d rest ih =>
      obtain ⟨⟨s, rfl⟩, hrest⟩ := List.forall_mem_cons.1 h
      obtain ⟨texts, htexts⟩ := ih hrest (place + 1)
      exact exists_bind htexts ⟨_, rfl⟩

theorem AllText.exists_join (h : AllText words) : ∃ line, words.join = .ok line := by
  obtain ⟨texts, htexts⟩ := h.exists_texts 0
  exact exists_bind htexts ⟨_, rfl⟩

end Words

open Words

namespace ExportSettings

/-- The settings are of the kinds that a document gives them, and the numbers that a
command shows have a property. -/
structure WellTyped (P : Number → Prop) (s : ExportSettings) : Prop where
  fps : s.fps.IsNumber P
  crf : s.crf.IsNumber P
  sampleRate : s.sampleRate.IsNumber P
  videoCodec : s.videoCodec.IsText
  videoBitrate : s.videoBitrate.IsText
  preset : s.preset.IsText
  audioCodec : s.audioCodec.IsText
  audioBitrate : s.audioBitrate.IsText
  format : s.format.IsText
  outputFile : s.outputFile = .null ∨ s.outputFile.IsText

variable {s : ExportSettings} {P : Number → Prop}

namespace WellTyped

theorem withNumbers {Q : Number → Prop} (h : s.WellTyped P)
    (hQ : ∀ d ∈ [s.fps, s.crf, s.sampleRate], ∀ x, d = .number x → Q x) : s.WellTyped Q := by
  have hboth : ∀ d ∈ [s.fps, s.crf, s.sampleRate], d.IsNumber P → d.IsNumber Q := by
    rintro d hd ⟨x, hx, -⟩
    exact ⟨x, hx, hQ d hd x hx⟩
  exact { h with
    fps := hboth _ (by simp) h.fps
    crf := hboth _ (by simp) h.crf
    sampleRate := hboth _ (by simp) h.sampleRate }

theorem output (h : s.WellTyped P) : s.output.IsText := by
  rw [ExportSettings.output]
  rcases h.outputFile with hnull | htext
  · rw [hnull]
    exact isText_text _
  · exact htext.orElse (isText_text _)

variable (h : s.WellTyped Number.Fits)
include h

theorem frameRate : s.frameRate.IsNumber Number.Fits :=
  h.fps.orElse (Number.fits_int (by decide +kernel))

theorem soundRate : s.soundRate.IsNumber Number.Fits :=
  h.sampleRate.orElse (Number.fits_int (by decide +kernel))

theorem rateFactor : s.rateFactor.IsNumber Number.Fits := by
  obtain ⟨x, hx, hfits⟩ := h.crf
  refine ⟨x, ?_, hfits⟩
  rw [ExportSettings.rateFactor, hx]

theorem gives_videoFlags : Gives AllText s.videoFlags := by
  have hcodec := allText_flagFor "-c:v" h.videoCodec
  obtain ⟨rate, hrate⟩ := h.frameRate.exists_parameter
  have hdone : ∀ quality : Words, AllText quality → Gives AllText (do
      return flagFor "-c:v" s.videoCodec ++ quality
        ++ .ofTexts ["-r", ← s.frameRate.parameter]) := by
    intro quality hquality
    refine .bind (.of_exists ⟨rate, hrate⟩) ?_
    intro rate _
    exact .ok ((hcodec.append hquality).append (allText_ofTexts _))
  rw [videoFlags]
  split
  · exact hdone _ (allText_flagFor "-b:v" h.videoBitrate)
  · refine .bind (.of_exists (exists_usesRateFactor h.videoCodec)) ?_
    intro uses _
    split
    · refine .bind (.of_exists h.rateFactor.exists_parameter) ?_
      intro factor _
      exact hdone _ ((allText_ofTexts _).append (allText_flagFor "-preset" h.preset))
    · exact hdone _ (List.forall_mem_nil _)

theorem gives_audioFlags : Gives AllText s.audioFlags := by
  refine .bind (.of_exists h.soundRate.exists_parameter) ?_
  intro rate _
  exact .ok (((allText_flagFor "-c:a" h.audioCodec).append
    (allText_flagFor "-b:a" h.audioBitrate)).append (allText_ofTexts _))

theorem exists_outputFlags : ∃ flags, s.outputFlags = .ok flags := by
  obtain ⟨flags, hflags⟩ :=
    exists_containerFlags (h.format.orElse (isText_text "mp4"))
  obtain ⟨name, hname⟩ := h.output
  have hword : ∃ word, s.outputWord = .ok word := by
    rw [outputWord, hname]
    exact ⟨_, rfl⟩
  obtain ⟨word, hword⟩ := hword
  exact exists_bind hflags (exists_bind hword ⟨_, rfl⟩)

theorem exists_renderCommand {p : GraphPlan}
    (hgraph : ∃ text, p.render = .ok text) :
    ∃ command, renderCommand s p = .ok command := by
  obtain ⟨text, htext⟩ := hgraph
  obtain ⟨video, hvideo, hvideotext⟩ := h.gives_videoFlags
  obtain ⟨audio, haudio, haudiotext⟩ := h.gives_audioFlags
  obtain ⟨flags, hflags⟩ := h.exists_outputFlags
  exact exists_bind htext (exists_bind hvideo (exists_bind haudio (exists_bind hflags
    ((((allText_ofTexts _).append hvideotext).append haudiotext).append
      (allText_ofTexts _)).exists_join)))

theorem exists_copyCommand {p : CopyPlan}
    (hwindows : ∀ w ∈ p.windows, w.Fits) : ∃ command, copyCommand s p = .ok command := by
  obtain ⟨flags, hflags⟩ := h.exists_outputFlags
  have hlines : ∀ w ∈ p.windows,
      ∃ lines, ConcatScript.windowLines (ConcatScript.path p.media.name) w = .ok lines := by
    intro w hw
    obtain ⟨start, hstart⟩ := Number.exists_seconds (hwindows w hw).start
    obtain ⟨stop, hstop⟩ := Number.exists_seconds (hwindows w hw).stop
    exact exists_bind hstart (exists_bind hstop ⟨_, rfl⟩)
  obtain ⟨lines, hlines⟩ := exists_mapM hlines
  have hpayload : ∃ text, p.payload = .ok text :=
    exists_bind (a := lines.flatten) (by rw [CopyPlan.scriptLines, hlines]; rfl) ⟨_, rfl⟩
  obtain ⟨payload, hpayload⟩ := hpayload
  exact exists_bind hpayload (exists_bind hflags ⟨_, rfl⟩)

end WellTyped

end ExportSettings

end Montage
