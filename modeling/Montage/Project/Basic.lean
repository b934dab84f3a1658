import Montage.Project.Plan
import Montage.Snapshot.Edit
import Montage.Snapshot.File

/-!
Projects: a snapshot that is compiled once.

The first compilation that ends without a fault fixes the outcome; later edits of the snapshot do
not change it, but the plan shows settings and clips as they are.
-/

namespace Montage

structure Project where
  snapshot : Snapshot
  /-- The settings at the start, once the snapshot has taken others. -/
  kept : Option ExportSettings := none
  /-- The outcome of the compilation. -/
  outcome : Option (Option ExportResult) := none

/-- Work on a project; a fault ends the work and not the project. -/
abbrev Working := ExceptT Fault (StateM Project)

/-- What a run prints, and whether there was anything to export. -/
structure Printout where
  exported : Bool
  output : String := ""
  errors : String := ""
  deriving DecidableEq

namespace Project

def load (name : String) (output preset : Option String) (file : Option SnapshotFile) :
    Except Failure Project := do
  return { snapshot := ← Snapshot.load name output preset file }

/-- The settings that the plan shows. -/
def settings (p : Project) : ExportSettings := p.kept.getD p.snapshot.settings

/-- The outcome, compiled if it is not yet there. -/
def compile : Working (Option ExportResult) := do
  let p ← get
  match p.outcome with
  | some result => return result
  | none =>
    let result ← liftM (m := Except Fault) (p.snapshot.compile none none)
    set { p with outcome := some result }
    return result

def plan : Working Plan := do
  let result ← compile
  let p ← get
  liftM (m := Except Fault) (Plan.ofResult p.snapshot.clips p.settings result)

def audioWarning : String :=
  "warning: audio presence is unknown for some media; the export assumes audio streams exist"

/-- The line above a command. -/
def headline (r : ExportResult) : String :=
  "# " ++ integerText r.segments.length ++ " segments, "
    ++ if r.copied then "stream copy" else "filter graph"

/-- What a run prints for an outcome. -/
def printout (quiet : Bool) : Option ExportResult → Printout
  | none => { exported := false, errors := "nothing to export\n" }
  | some r => {
    exported := true
    output := (if quiet then "" else headline r ++ "\n") ++ r.command ++ "\n"
    errors := if r.warning then audioWarning ++ "\n" else "" }

/-- Prints the command. -/
def run (quiet : Bool) : Working Printout := do return printout quiet (← compile)

/-- Edits the snapshot. -/
def edit (change : Snapshot → Snapshot) (p : Project) : Project :=
  { p with snapshot := change p.snapshot }

/-- Edits the clips with an id, also where the outcome shows them. -/
def changeClip (id : String) (change : Clip → Clip) (p : Project) : Project :=
  let changeRun := changeWhere (·.id == id) change
  let changeSegment (s : Segment) : Segment :=
    { s with video := changeRun s.video, audio := changeRun s.audio }
  let changeResult (r : ExportResult) : ExportResult :=
    { r with segments := r.segments.map changeSegment }
  if p.snapshot.clips.any (·.id == id) then
    { p with
      snapshot := p.snapshot.changeClip id change
      outcome := p.outcome.map (·.map changeResult) }
  else p

/-- Edits the media with an id, also where the outcome shows them. -/
def changeMedia (id : String) (change : Media → Media) (p : Project) : Project :=
  { p with
    snapshot := p.snapshot.changeMedia id change
    outcome := p.outcome.map (·.map fun r =>
      { r with inputs := changeWhere (·.id == id) change r.inputs }) }

/-- Puts a preset over the settings of the snapshot; the plan goes on showing the old ones. -/
def usePreset (id : String) (p : Project) : Except Failure Project := do
  let snapshot ← p.snapshot.usePreset id
  return { p with snapshot := snapshot, kept := some p.settings }

end Project

end Montage
