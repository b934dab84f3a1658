import Montage.Filter.Effective
import Montage.Timeline.Window
import Montage.Timeline.Winner

/-!
Copy plans.

When every segment plays an untouched window of one source, the export can copy the windows
instead of rendering them.
-/

namespace Montage

structure CopyPlan where
  media : Media
  windows : List Window
  warning : Bool

/-- All that a copy plan is made from, the segments apart. -/
structure CopyContext where
  sources : Sources
  rule : FilterRule

namespace CopyContext

/-- A clip that is played as its source is. -/
def copiesClip (k : CopyContext) (c : Clip) : Bool :=
  c.playSpeed.eq 1 && !c.reversed && !c.muted && c.visible && (k.rule c).isNeutral

/-- A segment that plays the same untouched clips on both channels. -/
def copiesSegment (k : CopyContext) (s : Segment) : Except Fault Bool := do
  if (← s.duration).le 0 then return false
  return !s.video.isEmpty && !s.audio.isEmpty && s.video.map Clip.id == s.audio.map Clip.id
    && s.video.all k.copiesClip

/-- The media id that all clips share with `source`, if they do. -/
def sharedSource (source : Option String) : List Clip → Option (Option String)
  | [] => some source
  | c :: rest =>
    match source with
    | none => sharedSource (some c.mediaId) rest
    | some id => if c.mediaId == id then sharedSource source rest else none

/-- The shared media id and the windows of a list of segments; none when one of them needs
rendering. -/
def windows (k : CopyContext) (source : Option String) :
    List Segment → Except Fault (Option (Option String × List Window))
  | [] => .ok (some (source, []))
  | s :: rest => do
    if !(← k.copiesSegment s) then return none
    match sharedSource source s.video, s.winner? .video with
    | some source, some c =>
      let window ← Window.ofSlice c s.start (← s.duration)
      return (← k.windows source rest).map fun r => (r.1, window :: r.2)
    | _, _ => return none

/-- The media item, when it is at hand and has picture and sound. -/
def usable (k : CopyContext) (id : String) : Option Media :=
  (findMedia? k.sources.media id).filter fun m =>
    !m.offline && m.hasVideo (k.sources.infoOf m) && m.hasAudio (k.sources.infoOf m)

/-- The copy plan of a list of segments; none when one of them needs rendering. -/
def plan (k : CopyContext) (segments : List Segment) : Except Fault (Option CopyPlan) := do
  match ← k.windows none segments with
  | some (some id, windows) =>
    return (k.usable id).map fun m =>
      ⟨m, windows, Media.audioInferred (k.sources.infoOf m)⟩
  | _ => return none

end CopyContext

end Montage
