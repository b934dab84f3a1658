import Montage.Proofs.Snapshot.Bounds

/-!
The export settings of loaded snapshots.

Every setting has a key of its own in the export mapping of a document.  A setting is what its key
holds, else what the chosen preset fixes, else its usual value; an output given from outside stands
before all of them.  Only the key for the preset reaches more than one setting, and the setting of
the encoder that is called a preset too has a key of another name.
-/

namespace Montage

/-- The frame that a value stands for: the whole parts of two numbers, or the word for any frame. -/
def Document.frame? (d : Document) : Option Frame :=
  match d.face with
  | .null => some (.named (.text "auto"))
  | .text s => if s = "auto" then some (.named (.text "auto")) else none
  | .list [.number w, .number h] =>
    match w.truncate, h.truncate with
    | .ok width, .ok height => some (.size (some (.int width)) (some (.int height)))
    | _, _ => none
  | _ => none

/-- The value of a setting. -/
inductive SettingValue where
  | frame (f : Frame)
  | plain (d : Document)

inductive SettingKind where
  | frame
  | number
  | text
  | switch

/-- What a value stands for as a setting of some kind, if it is of that kind. -/
def SettingKind.read? : SettingKind → Document → Option SettingValue
  | frame, d => d.frame?.map .frame
  | number, .number x => some (.plain (.number x))
  | text, .null => some (.plain (.text ""))
  | text, .text s => some (.plain (.text s))
  | text, .number x => some (.plain (.text x.text))
  | switch, .bool b => some (.plain (.bool b))
  | _, _ => none

inductive Setting where
  | resolution
  | fps
  | videoCodec
  | videoBitrate
  | crf
  | preset
  | audioCodec
  | audioBitrate
  | sampleRate
  | format
  | rangeStart
  | rangeEnd
  | deClick
  | allowLosslessCopy
  | outputFile
  deriving DecidableEq

namespace Setting

/-- The key of a setting in an export mapping. -/
def key : Setting → String
  | resolution => "resolution"
  | fps => "fps"
  | videoCodec => "video_codec"
  | videoBitrate => "video_bitrate"
  | crf => "crf"
  | preset => "encoder_preset"
  | audioCodec => "audio_codec"
  | audioBitrate => "audio_bitrate"
  | sampleRate => "sample_rate"
  | format => "format"
  | rangeStart => "range_start"
  | rangeEnd => "range_end"
  | deClick => "de_click"
  | allowLosslessCopy => "allow_lossless_copy"
  | outputFile => "output_file"

def kind : Setting → SettingKind
  | resolution => .frame
  | fps | crf | sampleRate | rangeStart | rangeEnd => .number
  | videoCodec | videoBitrate | preset | audioCodec | audioBitrate | format | outputFile => .text
  | deClick | allowLosslessCopy => .switch

def value (s : ExportSettings) : Setting → SettingValue
  | resolution => .frame s.resolution
  | fps => .plain s.fps
  | videoCodec => .plain s.videoCodec
  | videoBitrate => .plain s.videoBitrate
  | crf => .plain s.crf
  | preset => .plain s.preset
  | audioCodec => .plain s.audioCodec
  | audioBitrate => .plain s.audioBitrate
  | sampleRate => .plain s.sampleRate
  | format => .plain s.format
  | rangeStart => .plain s.rangeStart
  | rangeEnd => .plain s.rangeEnd
  | deClick => .plain s.deClick
  | allowLosslessCopy => .plain s.allowLosslessCopy
  | outputFile => .plain s.outputFile

/-- The value that an output given from outside fixes. -/
def outside? (output : Option String) : Setting → Option SettingValue
  | outputFile => (output.filter (!·.isEmpty)).map fun name => .plain (.text name)
  | _ => none

/-- The value that the key of a setting holds; a null is none for the end of the range. -/
def own? (entries : Entries) (f : Setting) : Option SettingValue :=
  (Document.get? entries f.key).bind f.kind.read?

/-- The value that a preset fixes. -/
def fixed? (p : Preset) : Setting → Option SettingValue
  | resolution => some (.frame p.resolution)
  | fps => some (.plain (.number p.fps))
  | videoCodec => some (.plain (.text p.videoCodec))
  | videoBitrate => some (.plain (.text p.videoBitrate))
  | crf => some (.plain (.number p.crf))
  | preset => some (.plain (.text p.preset))
  | audioCodec => some (.plain (.text p.audioCodec))
  | audioBitrate => some (.plain (.text p.audioBitrate))
  | sampleRate => some (.plain (.number p.sampleRate))
  | _ => none

end Setting

/-- The value that chooses the preset: one given from outside, else that of its key. -/
def Reading.chosenPreset (preset : Option String) (entries : Entries) : Document :=
  match preset.filter (!·.isEmpty) with
  | some id => .text id
  | none => Document.get entries "preset"

/-- The value of a setting by the layers in which it may be given. -/
def Setting.layered (output preset : Option String) (entries : Entries) (f : Setting) :
    SettingValue :=
  ((f.outside? output).or ((f.own? entries).or
    ((Preset.named? (Reading.chosenPreset preset entries)).bind f.fixed?))).getD (f.value {})

/-- The settings are those that an export mapping calls for. -/
structure ExportSettings.CalledFor (output preset : Option String) (entries : Entries)
    (s : ExportSettings) : Prop where
  /-- A preset that is chosen is there. -/
  chosen : (Reading.chosenPreset preset entries).isVoid = false →
    (Preset.named? (Reading.chosenPreset preset entries)).isSome
  /-- A key that is there holds a value of its kind, a null for the end of the range apart. -/
  reads : ∀ (f : Setting) (d : Document), Document.get? entries f.key = some d →
    (f.kind.read? d).isSome ∨ (f = .rangeEnd ∧ d = .null)
  value : ∀ f : Setting, f.value s = f.layered output preset entries

namespace Reading

theorem switch_eq_ok {label : String} {d : Document} {b : Bool}
    (h : switch label d = .ok b) : d = .bool b := by
  unfold switch at h
  split at h
  · rw [Except.ok.inj h]
  · simp only [reduceCtorEq] at h

theorem read?_of_number {label : String} {d : Document} {x : Number}
    (h : (liftM (number label d) : Except Failure Number) = .ok x) :
    SettingKind.number.read? d = some (.plain (.number x)) := by
  rw [number_eq_ok (liftRejection_eq_ok.1 h)]
  rfl

theorem read?_of_switch {label : String} {d : Document} {b : Bool}
    (h : (liftM (switch label d) : Except Failure Bool) = .ok b) :
    SettingKind.switch.read? d = some (.plain (.bool b)) := by
  rw [switch_eq_ok (liftRejection_eq_ok.1 h)]
  rfl

theorem size_eq_ok {label : String} {d : Document} {n : Int} (h : size label d = .ok n) :
    ∃ x, d = .number x ∧ x.truncate = .ok n := by
  obtain ⟨x, hx, h⟩ := bind_eq_ok.1 h
  exact ⟨x, number_eq_ok (liftRejection_eq_ok.1 hx), liftFault_eq_ok.1 h⟩

theorem read?_of_text {label : String} {d : Document} {t : String} (h : text label d = .ok t) :
    SettingKind.text.read? d = some (.plain (.text t)) := by
  unfold text at h
  split at h
  · rw [← Except.ok.inj h]
    rfl
  · rw [← Except.ok.inj h]
    rfl
  · next x =>
      have hx : x.text = t := Document.display_of_written (liftFault_eq_ok.1 h)
      rw [SettingKind.read?, hx]
  · simp only [reduceCtorEq] at h

theorem frame?_of_frame {d : Document} {f : Frame} (h : frame d = .ok f) :
    d.frame? = some f := by
  rw [frame] at h
  rw [Document.frame?]
  split at h
  · next hface =>
      rw [hface, ← Except.ok.inj h]
  · next w v hface =>
      obtain ⟨width, hwidth, h⟩ := bind_eq_ok.1 h
      obtain ⟨height, hheight, h⟩ := bind_eq_ok.1 h
      obtain ⟨-, h⟩ := unless_throw_eq_ok.1 h
      have hf := Except.ok.inj h
      obtain ⟨x, rfl, hx⟩ := size_eq_ok hwidth
      obtain ⟨y, rfl, hy⟩ := size_eq_ok hheight
      simp only [hface, hx, hy, ← hf]
  · split at h
    · next hauto =>
        simp only [Document.agrees_text_iff.1 hauto, ↓reduceIte, ← Except.ok.inj h]
    · simp only [reduceCtorEq] at h

/-- A step that sets some settings to what their keys hold, and leaves the others. -/
structure Sets (entries : Entries) (fields : List Setting) (s s' : ExportSettings) : Prop where
  value : ∀ f : Setting, f.value s' =
    if f ∈ fields then (f.own? entries).getD (f.value s) else f.value s
  reads : ∀ f ∈ fields, ∀ d, Document.get? entries f.key = some d →
    (f.kind.read? d).isSome ∨ (f = .rangeEnd ∧ d = .null)

variable {entries : Entries} {s s' s'' : ExportSettings}

theorem Sets.trans {fields fields' : List Setting} (h : Sets entries fields s s')
    (h' : Sets entries fields' s' s'') : Sets entries (fields ++ fields') s s'' := by
  constructor
  case value =>
    intro f
    rw [h'.value, h.value]
    by_cases hlater : f ∈ fields'
    · rw [if_pos hlater, if_pos (List.mem_append_right _ hlater)]
      -- a setting that both steps set has the value of its key after either
      by_cases hearlier : f ∈ fields
      · rw [if_pos hearlier]
        cases f.own? entries <;> rfl
      · rw [if_neg hearlier]
    · simp only [hlater, ↓reduceIte, List.mem_append, or_false]
  case reads =>
    intro f hf
    rcases List.mem_append.1 hf with hf | hf
    · exact h.reads f hf
    · exact h'.reads f hf

/-- A setting whose key is absent is left. -/
theorem Sets.of_absent {f : Setting} (h : Document.get? entries f.key = none) :
    Sets entries [f] s s := by
  constructor
  case value =>
    intro g
    split
    · next hg =>
        rw [List.mem_singleton.1 hg, Setting.own?, h]
        rfl
    · rfl
  case reads =>
    intro g hg d hd
    rw [List.mem_singleton.1 hg, h] at hd
    exact nomatch hd

/-- A setting whose key holds a value of its kind is set to it. -/
theorem Sets.of_present {f : Setting} {d : Document} {v : SettingValue}
    (hd : Document.get? entries f.key = some d) (hv : f.kind.read? d = some v)
    (hchange : ∀ g : Setting, g.value s' = if g = f then v else g.value s) :
    Sets entries [f] s s' := by
  constructor
  case value =>
    intro g
    rw [hchange]
    simp only [List.mem_singleton]
    split
    · next hg =>
        rw [hg, Setting.own?, hd, Option.bind_some, hv, Option.getD_some]
    · rfl
  case reads =>
    intro g hg d' hd'
    obtain rfl := List.mem_singleton.1 hg
    rw [hd] at hd'
    rw [← Option.some.inj hd', hv]
    exact .inl rfl

/-- A step that reads one setting from its key. -/
theorem sets_override {α : Type} {f : Setting} {read : String → Document → Except Failure α}
    {change : α → ExportSettings → ExportSettings} {v : α → SettingValue}
    (hread : ∀ {label d a}, read label d = .ok a → f.kind.read? d = some (v a))
    (hchange : ∀ a (g : Setting), g.value (change a s) = if g = f then v a else g.value s)
    (h : override entries f.key read change s = .ok s') : Sets entries [f] s s' := by
  rw [override] at h
  split at h
  · next habsent =>
      obtain rfl := Except.ok.inj h
      exact .of_absent habsent
  · next d hd =>
      obtain ⟨a, ha, h⟩ := bind_eq_ok.1 h
      obtain rfl := Except.ok.inj h
      exact .of_present hd (hread ha) (hchange a)

theorem sets_overrideFrame (h : overrideFrame entries s = .ok s') :
    Sets entries [.resolution] s s' := by
  rw [overrideFrame] at h
  split at h
  · next habsent =>
      obtain rfl := Except.ok.inj h
      exact .of_absent habsent
  · next d hd =>
      obtain ⟨f, hf, h⟩ := bind_eq_ok.1 h
      obtain rfl := Except.ok.inj h
      have hv : SettingKind.frame.read? d = some (.frame f) := by
        rw [SettingKind.read?, frame?_of_frame hf, Option.map_some]
      refine .of_present hd hv ?_
      intro g
      cases g <;> rfl

theorem sets_overrideEnd (h : overrideEnd entries s = .ok s') :
    Sets entries [.rangeEnd] s s' := by
  rw [overrideEnd, Document.get] at h
  cases hd : Document.get? entries "range_end" with
  | none =>
      rw [hd] at h
      obtain rfl := Except.ok.inj h
      exact .of_absent hd
  | some d =>
      rw [hd, Option.getD_some] at h
      split at h
      · obtain rfl := Except.ok.inj h
        constructor
        case value =>
          intro g
          split
          · next hg =>
              rw [List.mem_singleton.1 hg, Setting.own?, Setting.key, hd]
              rfl
          · rfl
        case reads =>
          intro g hg d' hd'
          obtain rfl := List.mem_singleton.1 hg
          rw [Setting.key, hd] at hd'
          exact .inr ⟨rfl, (Option.some.inj hd').symm⟩
      · obtain ⟨x, hx, h⟩ := bind_eq_ok.1 h
        obtain rfl := Except.ok.inj h
        obtain rfl := number_eq_ok (liftRejection_eq_ok.1 hx)
        refine .of_present hd rfl ?_
        intro g
        cases g <;> rfl

/-- The settings of the keys of an export mapping are set, all of them. -/
theorem sets_overrides (h : overrides entries s = .ok s') :
    ∃ fields, (∀ f, f ∈ fields) ∧ Sets entries fields s s' := by
  obtain ⟨_, hframe, h⟩ := bind_eq_ok.1 h
  obtain ⟨_, hfps, h⟩ := bind_eq_ok.1 h
  obtain ⟨_, hcrf, h⟩ := bind_eq_ok.1 h
  obtain ⟨_, hsampleRate, h⟩ := bind_eq_ok.1 h
  obtain ⟨_, hstart, h⟩ := bind_eq_ok.1 h
  obtain ⟨_, hend, h⟩ := bind_eq_ok.1 h
  obtain ⟨_, hvideoCodec, h⟩ := bind_eq_ok.1 h
  obtain ⟨_, hvideoBitrate, h⟩ := bind_eq_ok.1 h
  obtain ⟨_, haudioCodec, h⟩ := bind_eq_ok.1 h
  obtain ⟨_, haudioBitrate, h⟩ := bind_eq_ok.1 h
  obtain ⟨_, hformat, h⟩ := bind_eq_ok.1 h
  obtain ⟨_, houtput, h⟩ := bind_eq_ok.1 h
  obtain ⟨_, hpreset, h⟩ := bind_eq_ok.1 h
  obtain ⟨_, hclick, h⟩ := bind_eq_ok.1 h
  have hset := sets_overrideFrame hframe
  have hset := hset.trans (sets_override (f := .fps) read?_of_number
    (fun _ g => by cases g <;> rfl) hfps)
  have hset := hset.trans (sets_override (f := .crf) read?_of_number
    (fun _ g => by cases g <;> rfl) hcrf)
  have hset := hset.trans (sets_override (f := .sampleRate) read?_of_number
    (fun _ g => by cases g <;> rfl) hsampleRate)
  have hset := hset.trans (sets_override (f := .rangeStart) read?_of_number
    (fun _ g => by cases g <;> rfl) hstart)
  have hset := hset.trans (sets_overrideEnd hend)
  have hset := hset.trans (sets_override (f := .videoCodec) read?_of_text
    (fun _ g => by cases g <;> rfl) hvideoCodec)
  have hset := hset.trans (sets_override (f := .videoBitrate) read?_of_text
    (fun _ g => by cases g <;> rfl) hvideoBitrate)
  have hset := hset.trans (sets_override (f := .audioCodec) read?_of_text
    (fun _ g => by cases g <;> rfl) haudioCodec)
  have hset := hset.trans (sets_override (f := .audioBitrate) read?_of_text
    (fun _ g => by cases g <;> rfl) haudioBitrate)
  have hset := hset.trans (sets_override (f := .format) read?_of_text
    (fun _ g => by cases g <;> rfl) hformat)
  have hset := hset.trans (sets_override (f := .outputFile) read?_of_text
    (fun _ g => by cases g <;> rfl) houtput)
  have hset := hset.trans (sets_override (f := .preset) read?_of_text
    (fun _ g => by cases g <;> rfl) hpreset)
  have hset := hset.trans (sets_override (f := .deClick) read?_of_switch
    (fun _ g => by cases g <;> rfl) hclick)
  have hset := hset.trans (sets_override (f := .allowLosslessCopy) read?_of_switch
    (fun _ g => by cases g <;> rfl) h)
  refine ⟨_, ?_, hset⟩
  intro f
  cases f <;> decide

/-- A preset fixes what it has values for, and leaves the other settings. -/
theorem value_apply (p : Preset) (f : Setting) :
    f.value (p.apply s) = (f.fixed? p).getD (f.value s) := by
  cases f <;> rfl

/-- No preset is named by a value that counts as absent. -/
theorem named?_of_isVoid {d : Document} (h : d.isVoid = true) : Preset.named? d = none := by
  cases d with
  | text id =>
      obtain rfl : id = "" := String.isEmpty_iff.1 h
      decide
  | _ => rfl

theorem presetSettings_eq_ok {chosen : Document} (h : presetSettings chosen = .ok s) :
    (chosen.isVoid = false → (Preset.named? chosen).isSome) ∧
      ∀ f : Setting, f.value s = ((Preset.named? chosen).bind f.fixed?).getD (f.value {}) := by
  rw [presetSettings] at h
  split at h
  · next hvoid =>
      obtain rfl := Except.ok.inj h
      rw [named?_of_isVoid hvoid]
      exact ⟨fun hnot => absurd hvoid (Bool.eq_false_iff.1 hnot), fun _ => rfl⟩
  · obtain ⟨p, hp, h⟩ := bind_eq_ok.1 h
    obtain rfl := Except.ok.inj h
    rw [presetNamed_eq_ok hp]
    exact ⟨fun _ => rfl, value_apply p⟩

theorem settings_eq_ok {output preset : Option String} {d : Document}
    (h : settings output preset d = .ok s) : s.CalledFor output preset d.keyed := by
  obtain ⟨entries, hentries, h⟩ := bind_eq_ok.1 h
  obtain rfl := mapping_eq_ok (liftRejection_eq_ok.1 hentries)
  obtain ⟨_, -, h⟩ := bind_eq_ok.1 h
  obtain ⟨base, hbase, h⟩ := bind_eq_ok.1 h
  obtain ⟨s', hs', h⟩ := bind_eq_ok.1 h
  obtain ⟨hchosen, hbase⟩ := presetSettings_eq_ok hbase
  obtain ⟨fields, hall, hset⟩ := sets_overrides hs'
  have hinside : ∀ f : Setting, f.value s' = ((f.own? d.keyed).or
      ((Preset.named? (chosenPreset preset d.keyed)).bind f.fixed?)).getD (f.value {}) := by
    intro f
    rw [hset.value, if_pos (hall f), hbase, Option.getD_or]
    rfl
  refine ⟨hchosen, fun f => hset.reads f (hall f), ?_⟩
  intro f
  rw [Setting.layered, Option.getD_or, ← hinside]
  split at h
  · next name hname =>
      obtain rfl := Except.ok.inj h
      cases f <;> simp [Setting.outside?, Setting.value, hname]
  · next hname =>
      obtain rfl := Except.ok.inj h
      cases f <;> simp [Setting.outside?, hname]

end Reading

/-- The entries of the export mapping of a document. -/
def Document.exports (d : Document) : Entries := (get d.keyed "export").keyed

namespace Snapshot

theorem calledFor_of_load {name : String} {output preset : Option String} {size : Nat}
    {d : Document} {s : Snapshot}
    (h : load name output preset (some ⟨size, .ok d⟩) = .ok s) :
    s.settings.CalledFor output preset d.exports :=
  Reading.settings_eq_ok (readFrom_of_load h).settings

/-- The settings of a loaded snapshot are those that its document calls for, and two documents that
choose the same preset differ in a setting only where they differ in its own key. -/
theorem settings_of_load {name : String} {output preset : Option String} {size : Nat}
    {d : Document} {s : Snapshot}
    (h : load name output preset (some ⟨size, .ok d⟩) = .ok s) :
    s.settings.CalledFor output preset d.exports ∧
      ∀ (size' : Nat) (d' : Document) (s' : Snapshot),
        load name output preset (some ⟨size', .ok d'⟩) = .ok s' →
        Document.get? d'.exports "preset" = Document.get? d.exports "preset" →
        ∀ f : Setting, Document.get? d'.exports f.key = Document.get? d.exports f.key →
          f.value s'.settings = f.value s.settings := by
  have hs := calledFor_of_load h
  refine ⟨hs, ?_⟩
  intro size' d' s' h' hpreset f hown
  have hchosen : Reading.chosenPreset preset d'.exports =
      Reading.chosenPreset preset d.exports := by
    rw [Reading.chosenPreset, Reading.chosenPreset, Document.get, Document.get, hpreset]
  rw [(calledFor_of_load h').value, hs.value, Setting.layered, Setting.layered, Setting.own?,
    Setting.own?, hown, hchosen]

end Snapshot

/-- A document whose export mapping names a preset, and has some keys of its own. -/
def presetFilm (crf : Number) : Document := .map [
  (.text "stackcut", .number 1),
  (.text "media", .list [.map [(.text "id", .text "film"), (.text "name", .text "film.mp4")]]),
  (.text "clips", .list [.map [(.text "id", .text "first"), (.text "media", .text "film"),
    (.text "duration", .number 1000)]]),
  (.text "export", .map [(.text "preset", .text "small-share"), (.text "crf", .number crf),
    (.text "encoder_preset", .text "fast"), (.text "video_bitrate", .number 900),
    (.text "format", .null), (.text "range_end", .null),
    (.text "output_file", .text "film.mp4")])]

theorem settings_of_presetFilm :
    ∃ s s', Snapshot.load "film.yaml" (some "other.mkv") (some "youtube-1080p")
        (some ⟨400, .ok (presetFilm 18)⟩) = .ok s ∧
      Snapshot.load "film.yaml" (some "other.mkv") (some "youtube-1080p")
        (some ⟨400, .ok (presetFilm 20)⟩) = .ok s' ∧
      (s.settings.resolution.literal, s.settings.preset.display) =
        ("Resolution(1920, 1080)", "fast") ∧
      s.settings.CalledFor (some "other.mkv") (some "youtube-1080p") (presetFilm 18).exports ∧
      Setting.preset.value s'.settings = Setting.preset.value s.settings := by
  have hload : ∀ crf ∈ [(18 : Number), 20], (Snapshot.load "film.yaml" (some "other.mkv")
      (some "youtube-1080p") (some ⟨400, .ok (presetFilm crf)⟩)).map
        (fun s => (s.settings.resolution.literal, s.settings.preset.display)) =
          .ok ("Resolution(1920, 1080)", "fast") := by
    decide +kernel
  obtain ⟨s, hs, hshown⟩ := exists_of_map_eq_ok (hload 18 (by decide))
  obtain ⟨s', hs', -⟩ := exists_of_map_eq_ok (hload 20 (by decide))
  obtain ⟨hcalled, hsame⟩ := Snapshot.settings_of_load hs
  exact ⟨s, s', hs, hs', hshown, hcalled, hsame 400 (presetFilm 20) s' hs' rfl .preset rfl⟩

end Montage
