import Montage.CommandLine.Options
import Montage.Project.Basic
import Montage.Yaml.Writing

/-!
The exporter: prints the command of a snapshot, or its plan.
-/

namespace Montage.CommandLine

/-- What a program leaves behind. -/
structure Exit where
  code : Nat
  output : String := ""
  errors : String := ""
  deriving DecidableEq

/-- What the exporter prints for a project. -/
def present (o : Options) (p : Project) : Except Fault Exit :=
  if o.plan then do
    let plan ← (Project.plan.run p).1
    return { code := 0, output := (← Yaml.written plan.document) ++ "\n" }
  else do
    let printed ← ((Project.run o.quiet).run p).1
    return {
      code := if printed.exported then 0 else 1
      output := printed.output, errors := printed.errors }

/-- What the exporter prints for the file that the options name. -/
def exportFile (o : Options) (file : Option SnapshotFile) : Except Failure Exit := do
  let p ← Project.load o.file o.output o.preset file
  present o p

end Montage.CommandLine
