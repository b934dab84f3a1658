import Montage.Timeline.Clip

/-!
Windows of source time.
-/

namespace Montage

/-- The part of a source that a slice of a clip plays. -/
structure Window where
  start : Number
  stop : Number
  speed : Number
  deriving DecidableEq

namespace Window

/-- The window of the slice of a clip that begins at a time and lasts a duration.  A reversed clip
plays its source from the end, so its slices map to windows in the opposite order. -/
def ofSlice (c : Clip) (start duration : Number) : Except Fault Window := do
  let speed := c.playSpeed
  let offset ← start.sub c.start
  let length ← duration.mul speed
  let first ←
    if c.reversed then
      let whole ← c.duration.mul speed
      let back ← whole.sub (← (← offset.add duration).mul speed)
      c.trim.add (Number.max 0 back)
    else c.trim.add (← offset.mul speed)
  return ⟨first, ← first.add length, speed⟩

end Window

end Montage
