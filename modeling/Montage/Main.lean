import Montage.CommandLine.Exporter

/-!
The command line of the exporter.
-/

namespace Montage.CommandLine

def usage : String :=
  "usage: montage [-h] -y YAMLFILE [-o OUTPUT_FILE] [-P PRESET] [-p] [-q]"

/-- The file of a name, if there is one. -/
def readSnapshotFile (name : String) : IO (Option SnapshotFile) := do
  try
    return some (SnapshotFile.ofText (← IO.FS.readFile name))
  catch _ => return none

end Montage.CommandLine

open Montage CommandLine

def main (args : List String) : IO UInt32 := do
  match invocation exporterForms args with
  | .help =>
    IO.println usage
    return 0
  | .misuse =>
    IO.eprintln usage
    return 2
  | .options o =>
    match exportFile o (← readSnapshotFile o.file) with
    | .ok result =>
      IO.print result.output
      IO.eprint result.errors
      return UInt32.ofNat result.code
    | .error failure =>
      IO.eprintln failure.message
      return 1
