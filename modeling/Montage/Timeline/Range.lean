import Montage.Document.Basic
import Montage.Timeline.Segment

/-!
The range of the timeline that is exported.
-/

namespace Montage

/-- A number or a text written as one, when it is finite; truth values, empty text and all else
give nothing. -/
def finite? : Document → Except Fault (Option Binary64)
  | .number x => do
    let v ← x.toBinary64
    return if v.isFinite then some v else none
  | .text s => .ok ((Text.readBinary64? s).filter (·.isFinite))
  | _ => .ok none

/-- A range that begins at a time, and ends at one unless it is open. -/
structure ExportRange where
  start : Number
  stop : Option Number := none

namespace ExportRange

/-- The range between two settings, no part of it before zero; none when it is empty or its ends
are the wrong way round. -/
def ofSettings (start stop : Document) : Except Fault (Option ExportRange) := do
  let zero := Number.float .zero
  let first := match ← finite? start with
    | some v => zero.max (.float v)
    | none => zero
  match ← finite? stop with
  | none => return some ⟨first, none⟩
  | some v =>
    let last := zero.max (.float v)
    return if last.le first then none else some ⟨first, some last⟩

/-- The part of a segment inside the range. -/
def cut (r : ExportRange) (s : Segment) : Segment :=
  { s with
    start := s.start.max r.start
    stop := match r.stop with
      | some t => s.stop.min t
      | none => s.stop }

/-- The parts of the segments inside the range, those of no length left out. -/
def clip (r : ExportRange) (segments : List Segment) : List Segment :=
  (segments.map r.cut).filter fun s => !s.stop.le s.start

end ExportRange

end Montage
