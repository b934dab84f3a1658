import Montage.Filter.Reading
import Montage.Timeline.Clip

/-!
The filters that a clip is played with: its overrides over the defaults of the timeline, and its
volume.
-/

namespace Montage

/-- The filters of clips that override nothing. -/
structure Defaults where
  video : FilterSet VideoKey := .neutral
  audio : FilterSet AudioKey := .neutral

/-- Filters ready to be applied.  The volume stands apart from the audio filters, and may be any
value where a rule other than the usual one gives it. -/
structure Effective where
  video : FilterSet VideoKey := .neutral
  audio : FilterSet AudioKey := .neutral
  volume : Document := .number 1

/-- A rule that gives each clip its filters. -/
abbrev FilterRule := Clip → Effective

namespace Effective

/-- The filters change nothing. -/
def isNeutral (e : Effective) : Bool :=
  e.video.agrees .neutral && e.audio.agrees .neutral && e.volume.agrees (.number 1)

end Effective

namespace Defaults

/-- The volume of a clip: its own, else that of its audio overrides, else the default one. -/
def volumeOf (d : Defaults) (c : Clip) : Document :=
  match c.volume with
  | some v => .number v
  | none =>
    match (d.audio.merged c.audioFilters).value? .volume with
    | some v => v.toDocument
    | none => .number 1

/-- The usual rule. -/
def effective (d : Defaults) : FilterRule := fun c =>
  { video := d.video.merged c.videoFilters
    audio := d.audio.merged c.audioFilters
    volume := d.volumeOf c }

end Defaults

end Montage
