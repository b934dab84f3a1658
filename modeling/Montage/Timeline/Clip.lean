import Montage.Document.Basic
import Montage.Filter.Basic

/-!
Clips: slices of media placed on the timeline.  All times are milliseconds; those of the timeline
count from its start, trims in source time.
-/

namespace Montage

structure Track where
  id : Int
  name : String := ""
  muted : Bool := false
  locked : Bool := false
  visible : Bool := true
  deriving DecidableEq

structure Clip where
  id : String
  mediaId : String
  track : Int
  start : Number
  duration : Number
  trimStart : Option Number := some 0
  trimEnd : Number := 0
  speed : Option Number := some (.float (Binary64.ofInt 1))
  reversed : Bool := false
  muted : Bool := false
  visible : Bool := true
  volume : Option Number := none
  videoFilters : FilterSet VideoKey := .empty
  audioFilters : FilterSet AudioKey := .empty
  name : String := ""
  color : Document := .null

namespace Clip

/-- The time at which a clip ends. -/
def stop (c : Clip) : Except Fault Number := c.start.add c.duration

/-- The speed of a clip; a missing or zero speed is normal speed. -/
def playSpeed (c : Clip) : Number :=
  match c.speed with
  | some v => if v.isZero then 1 else v
  | none => 1

/-- The source time at which a clip begins. -/
def trim (c : Clip) : Number :=
  match c.trimStart with
  | some t => if t.isZero then 0 else t
  | none => 0

/-- A clip shown with its place on the timeline. -/
def literal (c : Clip) : String :=
  "Clip(" ++ Text.quoted c.id ++ ", media=" ++ Text.quoted c.mediaId ++ ", track="
    ++ integerText c.track ++ ", start=" ++ c.start.text ++ ", duration=" ++ c.duration.text ++ ")"

end Clip

/-- The end of the last clip; zero without clips. -/
def timelineDuration (clips : List Clip) : Except Fault Number := do
  match ← clips.mapM Clip.stop with
  | [] => return 0
  | first :: rest => return rest.foldl Number.max first

end Montage
