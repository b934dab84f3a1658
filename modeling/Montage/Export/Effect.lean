import Montage.Export.Stage
import Montage.Filter.Effective
import Montage.Number.Power

/-!
The stages that filters, speed and pitch call for.
-/

namespace Montage

/-- Five thousandths of a second, the longest fade against clicks. -/
def clickFade : Number := .float (Binary64.ofRatio false (5 * unitsInOne) 1000)

def floatZero : Number := .float .zero

/-- When a fade that closes a slice begins, in seconds; never before the slice does. -/
def closingStart (milliseconds fade : Number) : Except Fault Number := do
  let seconds ← milliseconds.div (.float (Binary64.ofInt 1000))
  return floatZero.max (← seconds.sub fade)

/-- A stage if a condition holds. -/
def stageIf (holds : Bool) (stage : Except Fault Stage) : Except Fault (List Stage) :=
  if holds then do return [← stage] else .ok []

/-- Quarter turns; a half turn is two of them. -/
def turnStages (degrees : Number) : List Stage :=
  if degrees.eq 90 then [.transpose 1]
  else if degrees.eq 180 then [.transpose 2, .transpose 2]
  else if degrees.eq 270 then [.transpose 2]
  else []

/-- The stages of the picture filters of a slice. -/
def videoEffects (video : FilterSet VideoKey) (milliseconds : Number) :
    Except Fault (List Stage) := do
  let value := video.amount
  let parts ← Stage.eqParts (value .brightness) (value .contrast) (value .saturation)
    (value .gamma)
  let tone := if parts.isEmpty then []
    else [Stage.eq (value .brightness) (value .contrast) (value .saturation) (value .gamma)]
  let hue ← stageIf (!(value .hue).isZero) (.ok (.hue (value .hue)))
  let flips := (if video.isOn .flipH then [Stage.hflip] else [])
    ++ (if video.isOn .flipV then [Stage.vflip] else [])
  let blur ← stageIf (Number.lt 0 (value .blur)) (.ok (.boxBlur (value .blur)))
  let sharpen ← stageIf (Number.lt 0 (value .sharpen)) (.ok (.unsharp (value .sharpen)))
  let denoise ← stageIf (Number.lt 0 (value .denoise)) (Stage.denoise (value .denoise))
  let opening ← stageIf (Number.lt 0 (value .fadeIn)) (.ok (.fade "in" 0 (value .fadeIn)))
  let closing ← stageIf (Number.lt 0 (value .fadeOut)) do
    return .fade "out" (← closingStart milliseconds (value .fadeOut)) (value .fadeOut)
  return tone ++ hue ++ turnStages (value .rotate) ++ flips ++ blur ++ sharpen ++ denoise
    ++ opening ++ closing

/-- The stages of the sound filters of a slice; volume and pitch have stages of their own. -/
def audioEffects (audio : FilterSet AudioKey) (milliseconds : Number) :
    Except Fault (List Stage) := do
  let value := audio.amount
  let bass ← stageIf (audio.isOn .bass) (.ok (.bass (value .bass)))
  let treble ← stageIf (audio.isOn .treble) (.ok (.treble (value .treble)))
  let normalize ← stageIf (audio.isOn .normalize) (.ok .dynAudNorm)
  let pan ← stageIf (audio.isOn .pan) (.ok (.stereoPan (value .pan)))
  let opening ← stageIf (Number.lt 0 (value .fadeIn))
    (.ok (.audioFade "in" 0 (value .fadeIn) false))
  let closing ← stageIf (Number.lt 0 (value .fadeOut)) do
    return .audioFade "out" (← closingStart milliseconds (value .fadeOut)) (value .fadeOut) false
  return bass ++ treble ++ normalize ++ pan ++ opening ++ closing

/-- Short fades at both ends of a slice: five milliseconds, or half the slice if that is less. -/
def clickFades (milliseconds : Number) : Except Fault (List Stage) := do
  let seconds ← (← milliseconds.div (.float (Binary64.ofInt 1000))).toBinary64
  if !seconds.isFinite || (Number.float seconds).le 0 then return []
  let fade := clickFade.min (← Number.div (.float seconds) 2)
  if fade.le 0 then return []
  let start := floatZero.max (← Number.sub (.float seconds) fade)
  return [.audioFade "in" 0 fade true, .audioFade "out" start fade true]

end Montage
