import Montage.Fault
import Montage.Rejection

/-!
Failures: all that can keep a snapshot from being read or exported.
-/

namespace Montage

inductive Failure where
  | rejected (reason : Rejection)
  | fault (fault : Fault)
  /-- The text of the document is malformed. -/
  | malformed
  | missingFile (path : String)
  | unknownPreset (id : String)
  deriving DecidableEq

namespace Failure

def message : Failure → String
  | rejected reason => reason.message
  | fault f => f.message
  | malformed => "the document is malformed"
  | missingFile path => "[Errno 2] No such file or directory: " ++ Text.quoted path
  | unknownPreset id => (Rejection.unknownPreset id).message

/-- The message where it stands alone: a bare word or name is quoted. -/
def notice : Failure → String
  | fault (.truthWord word) => Text.quoted word
  | unknownPreset id => Text.quoted (unknownPreset id).message
  | f => f.message

end Failure

/-- What a text must have at some place; without it the text is malformed. -/
def orMalformed {α : Type} : Option α → Except Failure α
  | some x => .ok x
  | none => .error .malformed

instance : MonadLift (Except Fault) (Except Failure) where
  monadLift x := x.mapError .fault

instance : MonadLift (Except Rejection) (Except Failure) where
  monadLift x := x.mapError .rejected

end Montage
