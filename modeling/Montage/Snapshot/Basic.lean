import Montage.Export.Settings
import Montage.Filter.Effective
import Montage.Timeline.Winner

/-!
Snapshots: all that an export is made from.
-/

namespace Montage

structure Snapshot where
  clips : List Clip := []
  tracks : List Track := []
  media : List Media := []
  infos : List (String × MediaInfo) := []
  settings : ExportSettings := {}
  defaults : Defaults := {}

namespace Snapshot

/-- The media, with the presence that is in force. -/
def sources (s : Snapshot) (infos : Option (List (String × MediaInfo))) : Sources :=
  ⟨s.media, infos.getD s.infos⟩

/-- The rule that gives clips their filters, the usual one unless another is given. -/
def ruleFor (s : Snapshot) (rule : Option FilterRule) : FilterRule :=
  rule.getD s.defaults.effective

end Snapshot

end Montage
