import Montage.Export.Copy
import Montage.Text.Shell

/-!
Concat scripts: the file, the first and the last time of each window, one directive a line.

The payload holds the script with line ends written as a backslash and the letter n.
-/

namespace Montage

namespace ConcatScript

/-- A path with each backslash doubled and each single quote escaped. -/
def escapePath : List Char → List Char
  | [] => []
  | c :: rest =>
    if c == '\\' then '\\' :: '\\' :: escapePath rest
    else if c == '\'' then '\\' :: '\'' :: escapePath rest
    else c :: escapePath rest

def path (name : String) : String := String.ofList (escapePath name.toList)

/-- The directives of a window. -/
def windowLines (path : String) (w : Window) : Except Fault (List String) := do
  return ["file 'file:" ++ path ++ "'", "inpoint " ++ (← w.start.seconds),
    "outpoint " ++ (← w.stop.seconds)]

end ConcatScript

namespace CopyPlan

def scriptLines (p : CopyPlan) : Except Fault (List String) := do
  return (← p.windows.mapM (ConcatScript.windowLines (ConcatScript.path p.media.name))).flatten

/-- The script in one line. -/
def payload (p : CopyPlan) : Except Fault String := do
  return "\\n".intercalate (← p.scriptLines) ++ "\\n"

end CopyPlan

end Montage
