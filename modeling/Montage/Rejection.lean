import Montage.Number.Shortest

/-!
Reasons for which a snapshot is refused.  A label names the place in the document.
-/

namespace Montage

inductive Rejection where
  | notMapping (label : String)
  | notList (label : String)
  | notNumber (label : String)
  | notSwitch (label : String)
  | notText (label : String)
  | notWhole (label : String)
  | negative (label : String)
  | notPositive (label : String)
  | speedRange (label : String)
  | missingParts (label parts : String)
  | unknownFilter (label key : String)
  | duplicate (what id : String)
  | unknownTrack (clip : String) (track : Int)
  | presence (value : String)
  | tooLarge
  | notTopMapping
  | wrongVersion
  | missingKey (key : String)
  | unknownExportKey (key : String)
  | unknownPreset (id : String)
  | resolutionShape
  | resolutionSign
  deriving DecidableEq

namespace Rejection

def message : Rejection → String
  | notMapping label => s!"{label} must be a mapping"
  | notList label => s!"{label} must be a list"
  | notNumber label => s!"{label} must be a number"
  | notSwitch label => s!"{label} must be true or false"
  | notText label => s!"{label} must be text"
  | notWhole label => s!"{label} must be an integer"
  | negative label => s!"{label} must be >= 0"
  | notPositive label => s!"{label} must be > 0"
  | speedRange label => s!"{label} must be between 0.25 and 4.0"
  | missingParts label parts => s!"{label} requires {parts}"
  | unknownFilter label key => s!"{label} has unknown filter key: {key}"
  | duplicate what id => s!"duplicate {what} id: {id}"
  | unknownTrack clip track => s!"clip {clip} references unknown track " ++ integerText track
  | presence value => s!"presence must be true, false, or unknown: {value}"
  | tooLarge => "yaml file is larger than 10MB"
  | notTopMapping => "snapshot yaml must be a mapping at the top level"
  | wrongVersion => "stackcut must be set to 1"
  | missingKey key => s!"missing required key: {key}"
  | unknownExportKey key => s!"export has unknown key: {key}"
  | unknownPreset id => s!"unknown export preset: {id}"
  | resolutionShape => "export.resolution must be auto or [width, height]"
  | resolutionSign => "export.resolution must be positive"

end Rejection

end Montage
