import Montage.Document.Display

/-!
Stages of a filter graph, and the text of each.

A stage holds its parameters.  Numbers are written when the text is asked for, trimmed to a few
places or as parameters in full; the few stages whose numbers are fixed beforehand hold text.
-/

namespace Montage

inductive Stage where
  | blank
  | trim (start stop : String)
  | setPts (expression : String)
  | speedPts (speed : String)
  | reverse
  | eq (brightness contrast saturation gamma : Number)
  | hue (degrees : Number)
  | transpose (direction : Number)
  | hflip
  | vflip
  | boxBlur (radius : Number)
  | unsharp (amount : Number)
  | hqdn3d (luma chroma : String)
  | fade (direction : String) (start duration : Number)
  | scale (width height : Number)
  | pad (width height : Number)
  | setSar
  | pixelFormat (format : String)
  | color (width height : Number) (fps : Document) (duration : Number) (tint : String)
  | audioTrim (start stop : String)
  | audioSetPts (expression : String)
  | audioReverse
  | setRate (rate : Number)
  | tempo (factor : Number)
  | bass (gain : Number)
  | treble (gain : Number)
  | dynAudNorm
  | stereoPan (pan : Number)
  | audioFade (direction : String) (start duration : Number) (fixedDuration : Bool)
  | volume (level : Document)
  | nullSource (sampleRate : Document) (duration : Number) (layout : String)
  | concat (count video audio : Number)

namespace Stage

/-- The filter that a stage applies. -/
def name : Stage → String
  | blank => ""
  | trim .. => "trim"
  | setPts _ | speedPts _ => "setpts"
  | reverse => "reverse"
  | eq .. => "eq"
  | hue _ => "hue"
  | transpose _ => "transpose"
  | hflip => "hflip"
  | vflip => "vflip"
  | boxBlur _ => "boxblur"
  | unsharp _ => "unsharp"
  | hqdn3d .. => "hqdn3d"
  | fade .. => "fade"
  | scale .. => "scale"
  | pad .. => "pad"
  | setSar => "setsar"
  | pixelFormat _ => "format"
  | color .. => "color"
  | audioTrim .. => "atrim"
  | audioSetPts _ => "asetpts"
  | audioReverse => "areverse"
  | setRate _ => "asetrate"
  | tempo _ => "atempo"
  | bass _ => "bass"
  | treble _ => "treble"
  | dynAudNorm => "dynaudnorm"
  | stereoPan _ => "pan"
  | audioFade .. => "afade"
  | volume _ => "volume"
  | nullSource .. => "anullsrc"
  | concat .. => "concat"

/-- The timestamps that begin at zero. -/
def fromZero : String := "PTS-STARTPTS"

/-- The stage that plays a picture at a speed. -/
def atSpeed (speed : Number) : Except Fault Stage := do
  return .speedPts (← speed.parameter)

/-- The stage that removes noise: half the strength on brightness, three quarters on colour. -/
def denoise (strength : Number) : Except Fault Stage := do
  let half ← strength.div 2
  let chroma ← half.mul (.float (Binary64.ofRatio false (3 * unitsInOne) 2))
  return .hqdn3d (← half.trimmed 2) (← chroma.trimmed 2)

/-- The parameters of an `eq` stage that are not neutral. -/
def eqParts (brightness contrast saturation gamma : Number) : Except Fault (List String) := do
  let part (key : String) (neutral value : Number) : Except Fault (List String) := do
    if value.eq neutral then return [] else return [key ++ "=" ++ (← value.parameter)]
  return (← part "brightness" 0 brightness) ++ (← part "contrast" 1 contrast)
    ++ (← part "saturation" 1 saturation) ++ (← part "gamma" 1 gamma)

/-- A fade that opens a slice begins at a time written in full, any other at a trimmed one. -/
def fadeStart (direction : String) (start : Number) : Except Fault String :=
  if direction == "in" then start.parameter else start.trimmed 3

/-- The text of a width or a height. -/
def sizeText (size : Number) : Except Fault String := (Document.number size).written

/-- What follows the name of the filter. -/
def arguments : Stage → Except Fault String
  | blank | reverse | hflip | vflip | audioReverse | dynAudNorm => .ok ""
  | trim start stop | audioTrim start stop =>
    .ok ("=start=" ++ start ++ ":end=" ++ stop)
  | setPts expression | audioSetPts expression => .ok ("=" ++ expression)
  | speedPts speed => .ok ("=(" ++ fromZero ++ ")/" ++ speed)
  | eq b c s g => do return "=" ++ ":".intercalate (← eqParts b c s g)
  | hue degrees => do return "=h=" ++ (← degrees.parameter)
  | transpose direction => .ok ("=" ++ direction.text)
  | boxBlur radius => do return "=lr=" ++ (← radius.parameter) ++ ":lp=1"
  | unsharp amount => do return "=5:5:" ++ (← amount.parameter) ++ ":5:5:0.0"
  | hqdn3d luma chroma =>
    .ok ("=" ++ luma ++ ":" ++ luma ++ ":" ++ chroma ++ ":" ++ chroma)
  | fade direction start duration => do
    return "=" ++ direction ++ ":st=" ++ (← fadeStart direction start) ++ ":d="
      ++ (← duration.parameter)
  | scale width height => do
    return "=" ++ (← sizeText width) ++ ":" ++ (← sizeText height)
      ++ ":force_original_aspect_ratio=decrease"
  | pad width height => do
    return "=" ++ (← sizeText width) ++ ":" ++ (← sizeText height) ++ ":(ow-iw)/2:(oh-ih)/2"
  | setSar => .ok "=1"
  | pixelFormat format => .ok ("=" ++ format)
  | color width height fps duration tint => do
    return "=c=" ++ tint ++ ":s=" ++ (← sizeText width) ++ "x" ++ (← sizeText height) ++ ":r="
      ++ (← fps.parameter) ++ ":d=" ++ (← duration.seconds)
  | setRate rate => do return "=" ++ (← rate.trimmed 2)
  | tempo factor => do return "=" ++ (← factor.trimmed 3)
  | bass gain | treble gain => do return "=g=" ++ (← gain.parameter)
  | stereoPan pan => do
    let left ← (← (← Number.sub 1 pan).div 2).trimmed 3
    let right ← (← (← Number.add 1 pan).div 2).trimmed 3
    return "=stereo|c0=" ++ left ++ "*c0+" ++ left ++ "*c1|c1=" ++ right ++ "*c0+" ++ right
      ++ "*c1"
  | audioFade direction start duration fixedDuration => do
    let start ← fadeStart direction start
    let duration ← if fixedDuration then duration.trimmed 3 else duration.parameter
    return "=t=" ++ direction ++ ":st=" ++ start ++ ":d=" ++ duration
  | volume level => do return "=" ++ (← level.parameter)
  | nullSource sampleRate duration layout => do
    return "=channel_layout=" ++ layout ++ ":sample_rate=" ++ (← sampleRate.parameter) ++ ":d="
      ++ (← duration.seconds)
  | concat count video audio =>
    .ok ("=n=" ++ count.text ++ ":v=" ++ video.text ++ ":a=" ++ audio.text)

/-- The text of a stage. -/
def render (s : Stage) : Except Fault String := do
  return s.name ++ (← s.arguments)

/-- The word for the kind of a stage. -/
def title : Stage → String
  | blank => "FilterStage"
  | trim .. => "Trim"
  | setPts _ => "SetPts"
  | speedPts _ => "SpeedPts"
  | reverse => "Reverse"
  | eq .. => "Eq"
  | hue _ => "Hue"
  | transpose _ => "Transpose"
  | hflip => "HFlip"
  | vflip => "VFlip"
  | boxBlur _ => "BoxBlur"
  | unsharp _ => "Unsharp"
  | hqdn3d .. => "Hqdn3d"
  | fade .. => "Fade"
  | scale .. => "Scale"
  | pad .. => "Pad"
  | setSar => "SetSar"
  | pixelFormat _ => "PixelFormat"
  | color .. => "ColorSource"
  | audioTrim .. => "ATrim"
  | audioSetPts _ => "ASetPts"
  | audioReverse => "AReverse"
  | setRate _ => "ASetRate"
  | tempo _ => "ATempo"
  | bass _ => "Bass"
  | treble _ => "Treble"
  | dynAudNorm => "DynAudNorm"
  | stereoPan _ => "StereoPan"
  | audioFade .. => "AFade"
  | volume _ => "Volume"
  | nullSource .. => "ANullSrc"
  | concat .. => "Concat"

/-- A stage shown with its kind and its quoted text. -/
def literal (s : Stage) : Except Fault String := do
  return s.title ++ "(" ++ Text.quoted (← s.render) ++ ")"

end Stage

/-- Stages in a row, between labelled pads. -/
structure Chain where
  inputs : List String
  stages : List Stage
  outputs : List String

namespace Chain

def pads (labels : List String) : String :=
  String.join (labels.map fun label => "[" ++ label ++ "]")

/-- The text of a chain: its input pads, its stages, its output pads. -/
def render (c : Chain) : Except Fault String := do
  return pads c.inputs ++ ",".intercalate (← c.stages.mapM Stage.render) ++ pads c.outputs

/-- The text of a graph. -/
def renderGraph (chains : List Chain) : Except Fault String := do
  return "; ".intercalate (← chains.mapM render)

end Chain

end Montage
