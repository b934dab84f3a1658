import Montage.Export.Compile
import Montage.Export.Preset
import Montage.Timeline.Timecode

/-!
Plans: what an export will play, segment by segment, without its command.
-/

namespace Montage

structure PlannedSegment where
  start : Number
  stop : Number
  startTimecode : String
  stopTimecode : String
  /-- The ids of the clips seen. -/
  video : List String
  /-- The ids of the clips heard. -/
  audio : List String

namespace PlannedSegment

def ofSegment (s : Segment) : Except Fault PlannedSegment := do
  return {
    start := s.start, stop := s.stop
    startTimecode := ← timecode s.start, stopTimecode := ← timecode s.stop
    video := s.video.map Clip.id, audio := s.audio.map Clip.id }

def document (s : PlannedSegment) : Document :=
  .map [
    (.text "start", .number s.start),
    (.text "end", .number s.stop),
    (.text "start_tc", .text s.startTimecode),
    (.text "end_tc", .text s.stopTimecode),
    (.text "video", .list (s.video.map .text)),
    (.text "audio", .list (s.audio.map .text))]

end PlannedSegment

structure Plan where
  duration : Number
  /-- The preset that the settings are, or `custom`. -/
  preset : String
  output : Document
  copied : Bool
  warning : Bool
  blocked : Bool
  segments : List PlannedSegment

namespace Plan

/-- The word for settings that are no preset. -/
def presetText (id : String) : String := if id.isEmpty then "custom" else id

/-- The plan of a result for clips and settings. -/
def ofResult (clips : List Clip) (settings : ExportSettings) (result : Option ExportResult) :
    Except Fault Plan := do
  let segments ← ((result.map (·.segments)).getD []).mapM PlannedSegment.ofSegment
  let duration ← timelineDuration clips
  let preset ← matchPreset settings
  let output ← settings.writtenOutput
  return {
    duration := duration, preset := presetText preset, output := output
    copied := result.any (·.copied), warning := result.any (·.warning)
    blocked := result.any (·.blocked), segments := segments }

def document (p : Plan) : Document :=
  .map [
    (.text "timeline_duration", .number p.duration),
    (.text "preset", .text p.preset),
    (.text "output", p.output),
    (.text "used_lossless_copy", .bool p.copied),
    (.text "export_audio_warning", .bool p.warning),
    (.text "merge_blocked_by_other_tracks", .bool p.blocked),
    (.text "segments", .list (p.segments.map PlannedSegment.document))]

end Plan

end Montage
