import Montage.Snapshot.Reading
import Montage.Yaml.Reading

/-!
Snapshot files: a document with the size of its file.
-/

namespace Montage

structure SnapshotFile where
  /-- The size in bytes. -/
  size : Nat
  content : Except Failure Document

namespace SnapshotFile

def ofText (s : String) : SnapshotFile := ⟨s.utf8ByteSize, Yaml.read s⟩

end SnapshotFile

namespace Snapshot

/-- The snapshot in the file of a name, with a preset and an output given from outside. -/
def load (name : String) (output preset : Option String) (file : Option SnapshotFile) :
    Except Failure Snapshot := do
  match file with
  | none => throw (.missingFile name)
  | some f =>
    if sizeLimit < f.size then throw (.rejected .tooLarge)
    ofDocument output preset (← f.content)

end Snapshot

end Montage
