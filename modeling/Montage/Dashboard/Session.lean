import Montage.Dashboard.DebugLog
import Montage.Dashboard.Highlight
import Montage.Project.Basic

/-!
A session of the dashboard: it shows a project before, during and after its compilation.

A failure ends the compilation; what was shown before it stays.
-/

namespace Montage.Dashboard

/-- A line of the log pane. -/
inductive Line where
  | plain (s : String)
  | styled (t : StyledText)
  deriving DecidableEq

structure Session where
  file : String
  output : Option String := none
  preset : Option String := none
  debug : Bool := false
  clock : Clock := ⟨[]⟩
  started : Option Number := none
  /-- The time from start to finish. -/
  elapsed : Option Number := none
  failure : Option String := none
  result : Option ExportResult := none
  project : Option Project := none
  finished : Bool := false
  /-- All that the summary pane showed, the latest last. -/
  summaries : List StyledText := []
  /-- All that the project pane showed, the latest last. -/
  projects : List StyledText := []
  log : List Line := []
  debugLog : String := ""

/-- Work of a session; a failure keeps what was done before it. -/
abbrev Showing := ExceptT Failure (StateM Session)

namespace Showing

def readClock : Showing Number := do
  let s ← get
  set { s with clock := s.clock.advance }
  return s.clock.now

def faulty {α : Type} (x : Except Fault α) : Showing α :=
  liftM (m := Except Failure) (x.mapError .fault)

/-- Adds an entry to the debug log, if one is kept. -/
def note (message : String) : Showing Unit := do
  if (← get).debug then
    let elapsed ← match (← get).started with
      | none => pure (.float .zero)
      | some start => do faulty ((← readClock).sub start)
    let entry ← faulty (logEntry elapsed message)
    modify fun s => { s with debugLog := s.debugLog ++ entry }

def write (line : Line) : Showing Unit := modify fun s => { s with log := s.log ++ [line] }

/-- The summary of a result. -/
def resultSummary (t : StyledText) : Option ExportResult → Except Fault StyledText
  | none => return t.addStyled "N/A" Palette.dim
  | some r => do
    let width ← writtenInteger r.width
    let height ← writtenInteger r.height
    let t := t.addStyled (integerText r.segments.length) Palette.numbers |>.add "\n"
      |>.addStyled "Mode: " Palette.dim
      |>.addStyled (if r.copied then "stream copy" else "filter graph") Palette.foreground
      |>.add "\n" |>.addStyled "Frame: " Palette.dim
      |>.addStyled (width ++ "x" ++ height) Palette.numbers
    return if r.blocked then
      t.add "\n" |>.addStyled "merge blocked by other tracks" Palette.warning
    else t

/-- The state of a session in a word, with its style. -/
def status (s : Session) : String × String :=
  if s.failure.isSome then ("failed", Palette.failure)
  else if s.finished then ("done", Palette.paths)
  else ("compiling", Palette.foreground)

def summary (s : Session) : Except Fault StyledText := do
  let (word, style) := status s
  let time ← compileTime (s.elapsed.getD (.float .zero))
  let t : StyledText := {}
  resultSummary (t.addStyled "Status: " Palette.dim |>.addStyled word style |>.add "\n"
    |>.addStyled "Compile time: " Palette.dim |>.addStyled time Palette.numbers |>.add "\n"
    |>.addStyled "Segments: " Palette.dim) s.result

def showSummary : Showing Unit := do
  let t ← faulty (summary (← get))
  modify fun s => { s with summaries := s.summaries ++ [t] }

/-- A text from outside, or the word for none. -/
def given (s : Option String) : String := (s.filter (!·.isEmpty)).getD "N/A"

/-- The output and the preset of a session: those of the project, once it is there. -/
def outputAndPreset (s : Session) : Except Fault (String × String) := do
  match s.project with
  | none => return (given s.output, given s.preset)
  | some p =>
      return ((← p.settings.writtenOutput).display, Plan.presetText (← matchPreset p.settings))

def addProject (t : StyledText) : Option Project → StyledText
  | none => t
  | some p =>
    t.add "\n" |>.addStyled "Clips: " Palette.dim
      |>.addStyled (integerText p.snapshot.clips.length) Palette.numbers
      |>.addStyled " | Media: " Palette.dim
      |>.addStyled (integerText p.snapshot.media.length) Palette.numbers |>.add "\n"
      |>.addStyled "De-click: " Palette.dim
      |>.addStyled (if p.snapshot.settings.fadesClicks then "yes" else "no") Palette.foreground

def projectText (s : Session) : Except Fault StyledText := do
  let (output, preset) ← outputAndPreset s
  let t : StyledText := {}
  let t := t.addStyled "YAML: " Palette.dim |>.addStyled s.file Palette.paths |>.add "\n"
    |>.addStyled "Output: " Palette.dim
    |>.addStyled output (if output == "N/A" then Palette.dim else Palette.paths) |>.add "\n"
    |>.addStyled "Preset: " Palette.dim |>.addStyled preset Palette.foreground
  let t := addProject t s.project
  return if s.debug then
    t.add "\n" |>.addStyled "Debug log: " Palette.dim |>.addStyled debugLogName Palette.paths
  else t

def showProject : Showing Unit := do
  let t ← faulty (projectText (← get))
  modify fun s => { s with projects := s.projects ++ [t] }

/-- Shows the segments of a result, each with its place. -/
def showSegments : Int → List Segment → Showing Unit
  | _, [] => return ()
  | i, segment :: rest => do
    let line ← faulty (segmentLine i segment)
    write (.plain line)
    note line
    showSegments (i + 1) rest

def showResult (r : ExportResult) : Showing Unit := do
  write (.styled (.ofString "Segments" (Palette.bold Palette.header)))
  showSegments 0 r.segments
  if r.warning then
    write (.styled (.ofString "warning: audio presence is unknown for some media"
      Palette.warning))
  write (.plain "")
  write (.styled (.ofString (summaryOf r.command) (Palette.bold Palette.header)))
  write (.styled (highlight r.command))
  note ("command: " ++ r.command)

/-- Takes up a compiled project. -/
def accept (p : Project) (result : Option ExportResult) : Showing Unit := do
  modify fun s => { s with project := some p, result := result }
  showProject
  match result with
  | none =>
    write (.styled (.ofString "nothing to export" Palette.warning))
    note "nothing to export"
  | some r => showResult r

/-- Loads and compiles the project. -/
def work (file : Option SnapshotFile) : Showing Unit := do
  let s ← get
  let p ← liftM (m := Except Failure) (Project.load s.file s.output s.preset file)
  note ("loaded: " ++ s.file)
  let (result, p) := Project.compile.run p
  accept p (← faulty result)

/-- Shows a failure. -/
def fail (failure : Failure) : Showing Unit := do
  let notice := failure.notice
  modify fun s => { s with failure := some notice }
  note notice
  write (.styled (.ofString ("error: " ++ notice) (Palette.bold Palette.failure)))

def finish : Showing Unit := do
  modify fun s => { s with finished := true }
  if let some start := (← get).started then
    let stop ← readClock
    let elapsed ← faulty (stop.sub start)
    modify fun s => { s with elapsed := some elapsed }
  if (← get).failure.isNone then note "complete"
  else
    write (.plain "complete with errors")
    note "complete with errors"
  showSummary

/-- The line that names the debug log. -/
def debugLine : String := "debug log: " ++ debugLogName

/-- Begins the debug log, if one is kept. -/
def openLog (started : String) : Showing Unit := do
  if (← get).debug then
    modify fun s => { s with debugLog := logHeader started s.file }
    note debugLine

/-- A whole session. -/
def all (started : String) (file : Option SnapshotFile) : Showing Unit := do
  openLog started
  let start ← readClock
  modify fun s => { s with started := some start }
  showProject
  showSummary
  if (← get).debug then write (.plain debugLine)
  tryCatch (work file) fail
  finish

end Showing

namespace Session

/-- The session after it has shown the file of a snapshot. -/
def shown (s : Session) (started : String) (file : Option SnapshotFile) : Session :=
  ((Showing.all started file).run s).2

/-- The session after it has begun its debug log. -/
def opened (s : Session) (started : String) : Session := ((Showing.openLog started).run s).2

/-- The session after entries were added to its debug log. -/
def noted (s : Session) (messages : List String) : Session :=
  ((messages.forM Showing.note).run s).2

end Session

end Montage.Dashboard
