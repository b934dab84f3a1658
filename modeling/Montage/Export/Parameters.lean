import Montage.Export.Stage

/-!
Stages from their titles and their parameters, which are given by place or by name.
-/

namespace Montage

structure Parameters where
  places : List Document
  names : List (String × Document)

namespace Parameters

def get? (p : Parameters) (place : Nat) (name : String) : Option Document :=
  p.places[place]?.or (p.names.lookup name)

def number? (p : Parameters) (place : Nat) (name : String) : Option Number := do
  (← p.get? place name).number?

/-- A number, or another one when it is left out. -/
def numberOr? (p : Parameters) (place : Nat) (name : String) (absent : Number) :
    Option Number :=
  match p.get? place name with
  | some d => d.number?
  | none => some absent

def text? (p : Parameters) (place : Nat) (name : String) : Option String :=
  (p.get? place name).map Document.display

/-- A text, or another one when it is left out. -/
def textOr (p : Parameters) (place : Nat) (name absent : String) : String :=
  (p.text? place name).getD absent

end Parameters

namespace Stage

/-- The stage with a title and parameters, none if there is no such title or a parameter that is
needed is missing. -/
def ofTitle? (title : String) (p : Parameters) : Option (Except Fault Stage) := do
  match title with
  | "FilterStage" => return .ok .blank
  | "Trim" => return .ok (.trim (← p.text? 0 "start_sec") (← p.text? 1 "end_sec"))
  | "SetPts" => return .ok (.setPts (p.textOr 0 "expression" fromZero))
  | "SpeedPts" => return atSpeed (← p.number? 0 "speed")
  | "Reverse" => return .ok .reverse
  | "Eq" =>
    return .ok (.eq (← p.numberOr? 0 "brightness" 0) (← p.numberOr? 1 "contrast" 1)
      (← p.numberOr? 2 "saturation" 1) (← p.numberOr? 3 "gamma" 1))
  | "Hue" => return .ok (.hue (← p.number? 0 "degrees"))
  | "Transpose" => return .ok (.transpose (← p.number? 0 "direction"))
  | "HFlip" => return .ok .hflip
  | "VFlip" => return .ok .vflip
  | "BoxBlur" => return .ok (.boxBlur (← p.number? 0 "radius"))
  | "Unsharp" => return .ok (.unsharp (← p.number? 0 "amount"))
  | "Hqdn3d" => return denoise (← p.number? 0 "denoise")
  | "Fade" =>
    return .ok (.fade (← p.text? 0 "direction") (← p.number? 1 "start_sec")
      (← p.number? 2 "duration_sec"))
  | "Scale" => return .ok (.scale (← p.number? 0 "width") (← p.number? 1 "height"))
  | "Pad" => return .ok (.pad (← p.number? 0 "width") (← p.number? 1 "height"))
  | "SetSar" => return .ok .setSar
  | "PixelFormat" => return .ok (.pixelFormat (p.textOr 0 "pixel_format" "yuv420p"))
  | "ColorSource" =>
    return .ok (.color (← p.number? 0 "width") (← p.number? 1 "height") (← p.get? 2 "fps")
      (← p.number? 3 "duration_ms") (p.textOr 4 "color" "black"))
  | "ATrim" => return .ok (.audioTrim (← p.text? 0 "start_sec") (← p.text? 1 "end_sec"))
  | "ASetPts" => return .ok (.audioSetPts (p.textOr 0 "expression" fromZero))
  | "AReverse" => return .ok .audioReverse
  | "ASetRate" => return .ok (.setRate (← p.number? 0 "rate"))
  | "ATempo" => return .ok (.tempo (← p.number? 0 "factor"))
  | "Bass" => return .ok (.bass (← p.number? 0 "gain"))
  | "Treble" => return .ok (.treble (← p.number? 0 "gain"))
  | "DynAudNorm" => return .ok .dynAudNorm
  | "StereoPan" => return .ok (.stereoPan (← p.number? 0 "pan"))
  | "AFade" =>
    return .ok (.audioFade (← p.text? 0 "direction") (← p.number? 1 "start_sec")
      (← p.number? 2 "duration_sec") ((p.get? 3 "fixed_duration").any (!·.isVoid)))
  | "Volume" => return .ok (.volume (← p.get? 0 "level"))
  | "ANullSrc" =>
    return .ok (.nullSource (← p.get? 0 "sample_rate") (← p.number? 1 "duration_ms")
      (p.textOr 2 "channel_layout" "stereo"))
  | "Concat" =>
    return .ok (.concat (← p.number? 0 "count") (← p.numberOr? 1 "video" 1)
      (← p.numberOr? 2 "audio" 1))
  | _ => none

end Stage

end Montage
