import Montage.Text.Shell
import Montage.Timeline.Segment
import Montage.Timeline.Timecode

/-!
The words of the dashboard: short texts for times, commands and segments.
-/

namespace Montage.Dashboard

/-- A text with blanks before it up to a width. -/
def padLeft (width : Nat) (s : String) : String :=
  String.ofList (List.replicate (width - s.length) ' ') ++ s

/-- A duration: in milliseconds below one second, else in seconds. -/
def compileTime (seconds : Number) : Except Fault String := do
  let milliseconds ← seconds.mul (.float (Binary64.ofInt 1000))
  if milliseconds.lt 1000 then return (← milliseconds.fixed 1) ++ " ms"
  else return (← seconds.fixed 2) ++ " s"

/-- The last part of a path. -/
def baseName (path : List Char) : List Char := (path.reverse.takeWhile (· != '/')).reverse

/-- A command by its tool and its output; a command that does not split into words stays as it
is. -/
def summaryOf (command : String) : String :=
  if command.isEmpty then "command"
  else
    match Text.splitWords command.toList with
    | some (tool :: rest) =>
      let output := String.ofList (baseName ((tool :: rest).getLast (by simp)))
      (if tool = "printf".toList then "ffmpeg concat copy" else "ffmpeg") ++ ": " ++ output
    | _ => command

/-- The ids of a run, or a word for none. -/
def runText (run : List Clip) (none : String) : String :=
  let ids := ", ".intercalate (run.map Clip.id)
  if ids.isEmpty then none else ids

/-- A segment with its place in the list. -/
def segmentLine (index : Int) (s : Segment) : Except Fault String := do
  let start ← timecode s.start
  let stop ← timecode s.stop
  return padLeft 3 (integerText index) ++ "  " ++ start ++ " - " ++ stop
    ++ "  video: " ++ runText s.video "black" ++ "  audio: " ++ runText s.audio "silence"

end Montage.Dashboard
