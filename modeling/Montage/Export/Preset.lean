import Montage.Export.Settings

/-!
Presets: named groups of export settings.  A preset fixes the picture, the codecs and the rates,
and leaves the other settings alone.
-/

namespace Montage

structure Preset where
  id : String
  label : String
  resolution : Frame := .named (.text "auto")
  fps : Number := 30
  videoCodec : String := "libx264"
  videoBitrate : String := ""
  crf : Number
  preset : String
  audioCodec : String := "aac"
  audioBitrate : String
  sampleRate : Number

namespace Preset

def all : List Preset := [
  { id := "universal-h264", label := "Universal (H.264)", crf := 23, preset := "medium"
    audioBitrate := "192k", sampleRate := 44100 },
  { id := "small-share", label := "Small Share (720p)"
    resolution := .size (some 1280) (some 720), crf := 28, preset := "veryfast"
    audioBitrate := "96k", sampleRate := 44100 },
  { id := "youtube-1080p", label := "YouTube 1080p"
    resolution := .size (some 1920) (some 1080), crf := 20, preset := "slow"
    audioBitrate := "192k", sampleRate := 48000 },
  { id := "youtube-4k", label := "YouTube 4K (H.265)"
    resolution := .size (some 3840) (some 2160), videoCodec := "libx265", crf := 20
    preset := "slow", audioBitrate := "256k", sampleRate := 48000 }]

def find? (id : String) : Option Preset := all.find? fun p => p.id == id

/-- The settings with those of a preset in place. -/
def apply (p : Preset) (s : ExportSettings) : ExportSettings :=
  { s with
    resolution := p.resolution
    fps := .number p.fps
    videoCodec := .text p.videoCodec
    videoBitrate := .text p.videoBitrate
    crf := .number p.crf
    preset := .text p.preset
    audioCodec := .text p.audioCodec
    audioBitrate := .text p.audioBitrate
    sampleRate := .number p.sampleRate }

/-- Whether a setting is the number of a preset; what is no number is not. -/
def sameNumber (d : Document) (x : Number) : Except Fault Bool :=
  match d.toBinary64 with
  | .ok v => .ok ((Number.float v).eq x)
  | .error .integerTooLarge => .error .integerTooLarge
  | .error _ => .ok false

/-- Whether a setting is the text of a preset; what counts as absent is empty text. -/
def sameText (d : Document) (s : String) : Except Fault Bool := do
  return (← (d.orElse (.text "")).written) == s

/-- Whether each of some settings is what a preset has for it, up to the first that is not. -/
def allSame {α : Type} (same : Document → α → Except Fault Bool) :
    List (Document × α) → Except Fault Bool
  | [] => .ok true
  | (d, x) :: rest => do if ← same d x then allSame same rest else return false

/-- The settings that a preset has numbers for. -/
def numbers (p : Preset) (s : ExportSettings) : List (Document × Number) :=
  [(s.fps, p.fps), (s.crf, p.crf), (s.sampleRate, p.sampleRate)]

/-- The settings that a preset has texts for. -/
def texts (p : Preset) (s : ExportSettings) : List (Document × String) :=
  [(s.videoCodec, p.videoCodec), (s.videoBitrate, p.videoBitrate), (s.preset, p.preset),
    (s.audioCodec, p.audioCodec), (s.audioBitrate, p.audioBitrate)]

/-- Whether the settings are those of a preset. -/
def accepts (p : Preset) (s : ExportSettings) : Except Fault Bool := do
  if !s.resolution.agrees p.resolution then return false
  if !(← allSame sameNumber (p.numbers s)) then return false
  allSame sameText (p.texts s)

/-- The first preset in a list that accepts the settings. -/
def firstMatch (s : ExportSettings) : List Preset → Except Fault (Option Preset)
  | [] => .ok none
  | p :: rest => do if ← p.accepts s then return some p else firstMatch s rest

end Preset

/-- The id of the preset that the settings are, empty when they are none. -/
def matchPreset (s : ExportSettings) : Except Fault String := do
  return ((← Preset.firstMatch s Preset.all).map Preset.id).getD ""

end Montage
