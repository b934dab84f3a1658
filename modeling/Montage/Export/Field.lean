import Montage.Export.Settings

/-!
Export settings by the names of their fields.
-/

namespace Montage

namespace Frame

def partDocument : Option Number → Document
  | some x => .number x
  | none => .null

/-- A size as a list of its parts. -/
def document : Frame → Document
  | size width height => .list [partDocument width, partDocument height]
  | named d => d

/-- The frame that a list of two numbers, or any other value, stands for. -/
def ofDocument : Document → Frame
  | .list [width, height] => .size width.number? height.number?
  | d => .named d

end Frame

namespace ExportSettings

/-- The fields that a preset fixes. -/
def presetEntries (s : ExportSettings) : List (String × Document) := [
  ("resolution", s.resolution.document), ("fps", s.fps), ("video_codec", s.videoCodec),
  ("video_bitrate", s.videoBitrate), ("crf", s.crf), ("preset", s.preset),
  ("audio_codec", s.audioCodec), ("audio_bitrate", s.audioBitrate),
  ("sample_rate", s.sampleRate)]

/-- All fields. -/
def entries (s : ExportSettings) : List (String × Document) := s.presetEntries ++ [
  ("format", s.format), ("range_start", s.rangeStart), ("range_end", s.rangeEnd),
  ("de_click", s.deClick), ("allow_lossless_copy", s.allowLosslessCopy),
  ("output_file", s.outputFile)]

/-- The settings with a field set; none if there is no such field. -/
def put? (name : String) (d : Document) (s : ExportSettings) : Option ExportSettings :=
  match name with
  | "resolution" => some { s with resolution := .ofDocument d }
  | "fps" => some { s with fps := d }
  | "video_codec" => some { s with videoCodec := d }
  | "video_bitrate" => some { s with videoBitrate := d }
  | "crf" => some { s with crf := d }
  | "preset" => some { s with preset := d }
  | "audio_codec" => some { s with audioCodec := d }
  | "audio_bitrate" => some { s with audioBitrate := d }
  | "sample_rate" => some { s with sampleRate := d }
  | "format" => some { s with format := d }
  | "range_start" => some { s with rangeStart := d }
  | "range_end" => some { s with rangeEnd := d }
  | "de_click" => some { s with deClick := d }
  | "allow_lossless_copy" => some { s with allowLosslessCopy := d }
  | "output_file" => some { s with outputFile := d }
  | _ => none

end ExportSettings

end Montage
