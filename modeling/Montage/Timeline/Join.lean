import Montage.Filter.Effective
import Montage.Timeline.Range

/-!
Joining neighbouring segments.

Two neighbours become one when on each channel nothing is played on both sides, the same clip goes
on, or one clip continues the other without a seam: from the same media at the same speed, in
time and in the source, and with the same filters.
-/

namespace Montage

/-- Times at most this far apart count as one, half a millisecond. -/
def timeTolerance : Number := .float (Binary64.ofRatio false unitsInOne 2)

/-- Volumes at most this far apart count as one, a millionth. -/
def volumeTolerance : Number := .float (Binary64.ofRatio false unitsInOne 1000000)

/-- Whether two times are at most `tolerance` apart. -/
def closeWithin (tolerance a b : Number) : Except Fault Bool := do
  return (← a.distance b).le tolerance

def closeTimes (a b : Number) : Except Fault Bool := closeWithin timeTolerance a b

/-- Whether two volumes are the same: finite numbers up to the tolerance, all else exactly. -/
def sameVolume (a b : Document) : Except Fault Bool := do
  match ← finite? a, ← finite? b with
  | some x, some y => return (Number.float (x.sub y).abs).le volumeTolerance
  | _, _ => return a.agrees b

/-- How a channel goes on from one segment to the next. -/
inductive Decision where
  | empty
  | sameClip
  | continuous
  | different
  deriving DecidableEq

namespace Decision

def word : Decision → String
  | empty => "empty"
  | sameClip => "same-clip"
  | continuous => "continuous"
  | different => "different"

/-- The channel does not keep its segments apart. -/
def agrees (d : Decision) : Bool := d != .different

end Decision

/-- Whether two clips play one source without a seam at a time of the timeline. -/
def seamless (p n : Clip) (boundary : Number) : Except Fault Bool := do
  if p.mediaId != n.mediaId then return false
  if !p.playSpeed.eq n.playSpeed then return false
  if p.reversed || n.reversed then return false
  if !(← closeTimes (← p.stop) boundary) then return false
  if !(← closeTimes n.start boundary) then return false
  closeTimes (← p.trim.add (← p.duration.mul p.playSpeed)) n.trim

/-- Whether two clips look or sound the same under their filters. -/
def sameRendering (channel : Channel) (p n : Clip) (ep en : Effective) : Except Fault Bool :=
  match channel with
  | .video => .ok (p.visible && n.visible && ep.video.agrees en.video)
  | .audio =>
    if p.muted != n.muted then .ok false
    else if !ep.audio.agrees en.audio then .ok false
    else sameVolume ep.volume en.volume

/-- How a channel goes on from one clip to the next, if there are such clips. -/
def Decision.between (rule : FilterRule) (prev next : Option Clip) (boundary : Number)
    (channel : Channel) : Except Fault Decision :=
  match prev, next with
  | none, none => .ok .empty
  | some p, some n =>
    if p.id == n.id then .ok .sameClip
    else do
      if ← seamless p n boundary then
        if ← sameRendering channel p n (rule p) (rule n) then return .continuous
      return .different
  | _, _ => .ok .different

/-- Filters looked up before, by clip id. -/
abbrev FilterMemo := List (String × Effective)

/-- A step that may look up filters. -/
abbrev Recalling := StateT FilterMemo (Except Fault)

/-- The filters of a clip, as they were given to the first clip of its id. -/
def lookUp (rule : FilterRule) (c : Clip) : Recalling Effective := do
  match (← get).find? fun e => e.1 == c.id with
  | some e => return e.2
  | none =>
    modify ((c.id, rule c) :: ·)
    return rule c

/-- The decision with filters looked up once for each clip id. -/
def Decision.recalled (rule : FilterRule) (prev next : Option Clip) (boundary : Number)
    (channel : Channel) : Recalling Decision :=
  match prev, next with
  | none, none => return .empty
  | some p, some n =>
    if p.id == n.id then return .sameClip
    else do
      if ← seamless p n boundary then
        let ep ← lookUp rule p
        let en ← lookUp rule n
        if ← sameRendering channel p n ep en then return .continuous
      return .different
  | _, _ => return .different

/-- A run with more clips at its end; a clip of the same id as the last one is not added. -/
def extendRun (run : List Clip) : List Clip → List Clip
  | [] => run
  | c :: rest =>
    if run.getLast?.any (·.id == c.id) then extendRun run rest else extendRun (run ++ [c]) rest

/-- Joined segments, and whether one channel alone kept some of them apart. -/
structure Joined where
  segments : List Segment
  blocked : Bool := false

namespace Segment

/-- Two segments as one. -/
def joined (s t : Segment) : Segment where
  start := s.start
  stop := t.stop
  video := extendRun s.video t.video
  audio := extendRun s.audio t.audio

end Segment

/-- Whether one channel would join two segments and the other keeps them apart. -/
def Decision.blocks (audio video : Decision) : Bool :=
  (audio == .continuous && !video.agrees) || (video == .continuous && !audio.agrees)

/-- The segments after `current`, joined. -/
def joinFrom (rule : FilterRule) (current : Segment) : List Segment → Recalling Joined
  | [] => return ⟨[current], false⟩
  | s :: rest => do
    if ← closeTimes current.stop s.start then
      let audio ← Decision.recalled rule (current.tail? .audio) (s.winner? .audio) s.start .audio
      let video ← Decision.recalled rule (current.tail? .video) (s.winner? .video) s.start .video
      if audio.agrees && video.agrees then joinFrom rule (current.joined s) rest
      else
        let later ← joinFrom rule s rest
        return ⟨current :: later.segments, audio.blocks video || later.blocked⟩
    else
      let later ← joinFrom rule s rest
      return ⟨current :: later.segments, later.blocked⟩

/-- The segments joined wherever they play on without a seam. -/
def joinSegments (rule : FilterRule) : List Segment → Recalling Joined
  | [] => return ⟨[], false⟩
  | s :: rest => joinFrom rule s rest

end Montage
