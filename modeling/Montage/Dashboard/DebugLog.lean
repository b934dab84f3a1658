import Montage.Dashboard.Wording
import Montage.Text.Lines

/-!
The debug log: entries with the time since the start, further lines of an entry indented.
-/

namespace Montage.Dashboard

/-- A clock that shows given times one after the other and stays at the last. -/
structure Clock where
  times : List Number

namespace Clock

def now (c : Clock) : Number := c.times.head?.getD (.float .zero)

def advance (c : Clock) : Clock :=
  match c.times with
  | _ :: t :: rest => ⟨t :: rest⟩
  | _ => c

end Clock

def debugLogName : String := "stackcut_tui.log"

/-- The first line of a log. -/
def logHeader (started file : String) : String :=
  "stackcut_tui " ++ started ++ " yaml=" ++ file ++ "\n"

/-- An entry of a log. -/
def logEntry (elapsed : Number) (message : String) : Except Fault String := do
  let time ← elapsed.fixed 3
  let (first, more) := match Text.lines message.toList with
    | [] => ([], [])
    | first :: more => (first, more)
  let line (s : List Char) : String := String.ofList (List.replicate 13 ' ' ++ s ++ ['\n'])
  return "[+" ++ padLeft 8 time ++ "s] " ++ String.ofList first ++ "\n"
    ++ String.join (more.map line)

end Montage.Dashboard
