import Montage.Export.Command
import Montage.Snapshot.Basic
import Montage.Timeline.Join

/-!
Compiling a snapshot into one command: the segments of constant winners are cut to the range and
joined, then copied if nothing needs rendering, else rendered.
-/

namespace Montage

structure ExportResult where
  command : String
  warning : Bool
  copied : Bool
  blocked : Bool
  segments : List Segment
  inputs : List Media
  width : Int
  height : Int

namespace ExportResult

/-- A result shown with its way of export and its number of segments. -/
def literal (r : ExportResult) : String :=
  "ExportResult(" ++ (if r.copied then "copy" else "filter") ++ ", segments="
    ++ integerText r.segments.length ++ ")"

end ExportResult

namespace Snapshot

variable (s : Snapshot) (infos : Option (List (String × MediaInfo))) (rule : Option FilterRule)

/-- The joined segments of the export range; none when the range is empty. -/
def planSegments : Except Fault (Option Joined) := do
  let segments ← resolve (s.sources infos) s.clips
  match ← ExportRange.ofSettings s.settings.rangeStart s.settings.rangeEnd with
  | none => return none
  | some range =>
    let (joined, _) ← (joinSegments (s.ruleFor rule) (range.clip segments)).run []
    return some joined

/-- The copy plan of joined segments, when copying is allowed. -/
def copyPlan (segments : List Segment) : Except Fault (Option CopyPlan) :=
  if s.settings.mayCopy then
    CopyContext.plan ⟨s.sources infos, s.ruleFor rule⟩ segments
  else .ok none

/-- The result of copying. -/
def copyResult (joined : Joined) (plan : CopyPlan) : Except Fault ExportResult := do
  let command ← copyCommand s.settings plan
  let width ← wholeOr 0 plan.media.width
  return {
    command := command, warning := plan.warning, copied := true, blocked := joined.blocked
    segments := joined.segments, inputs := [plan.media]
    width := width, height := ← wholeOr 0 plan.media.height }

/-- The result of rendering; none when no segment is kept. -/
def renderResult (joined : Joined) : Except Fault (Option ExportResult) := do
  let (width, height) ← outputFrame s.settings s.clips s.media
  let context : GraphContext :=
    ⟨s.sources infos, s.settings, s.ruleFor rule, width, height⟩
  match ← context.plan joined.segments with
  | none => return none
  | some plan =>
    let command ← renderCommand s.settings plan
    return some {
      command := command, warning := plan.warning, copied := false, blocked := joined.blocked
      segments := joined.segments, inputs := plan.inputs, width := width, height := height }

/-- The export of a snapshot; none when there is nothing to export. -/
def compile : Except Fault (Option ExportResult) := do
  if s.clips.isEmpty then return none
  match ← s.planSegments infos rule with
  | none => return none
  | some joined =>
    if joined.segments.isEmpty then return none
    match ← s.copyPlan infos rule joined.segments with
    | some plan => return some (← s.copyResult joined plan)
    | none => s.renderResult infos rule joined

end Snapshot

end Montage
