import Montage.Number.Basic

/-!
The keys of video and audio filters, their neutral values, and which of them are switches.
-/

namespace Montage

inductive FilterValue where
  | switch (on : Bool)
  | amount (x : Number)
  deriving DecidableEq

namespace FilterValue

/-- The value as a number, with off as zero and on as one. -/
def toNumber : FilterValue → Number
  | switch on => .int (if on then 1 else 0)
  | amount x => x

/-- The same value as a number. -/
def agrees (a b : FilterValue) : Bool := a.toNumber.eq b.toNumber

end FilterValue

inductive VideoKey where
  | brightness | contrast | saturation | hue | gamma | rotate | flipH | flipV
  | blur | sharpen | denoise | fadeIn | fadeOut
  deriving DecidableEq

inductive AudioKey where
  | volume | bass | treble | normalize | pan | pitch | fadeIn | fadeOut
  deriving DecidableEq

/-- The keys of a kind of filters, in the order in which they are listed. -/
class FilterKey (K : Type) where
  keys : List K
  name : K → String
  isSwitch : K → Bool
  /-- The value that changes nothing. -/
  neutral : K → FilterValue

instance : FilterKey VideoKey where
  keys := [.brightness, .contrast, .saturation, .hue, .gamma, .rotate, .flipH, .flipV,
    .blur, .sharpen, .denoise, .fadeIn, .fadeOut]
  name
    | .brightness => "brightness"
    | .contrast => "contrast"
    | .saturation => "saturation"
    | .hue => "hue"
    | .gamma => "gamma"
    | .rotate => "rotate"
    | .flipH => "flip_h"
    | .flipV => "flip_v"
    | .blur => "blur"
    | .sharpen => "sharpen"
    | .denoise => "denoise"
    | .fadeIn => "fade_in"
    | .fadeOut => "fade_out"
  isSwitch k := k == .flipH || k == .flipV
  neutral
    | .contrast | .saturation | .gamma => .amount 1
    | .flipH | .flipV => .switch false
    | _ => .amount 0

instance : FilterKey AudioKey where
  keys := [.volume, .bass, .treble, .normalize, .pan, .pitch, .fadeIn, .fadeOut]
  name
    | .volume => "volume"
    | .bass => "bass"
    | .treble => "treble"
    | .normalize => "normalize"
    | .pan => "pan"
    | .pitch => "pitch"
    | .fadeIn => "fade_in"
    | .fadeOut => "fade_out"
  isSwitch k := k == .normalize
  neutral
    | .volume => .amount 1
    | .normalize => .switch false
    | _ => .amount 0

theorem mem_videoKeys (k : VideoKey) : k ∈ FilterKey.keys (K := VideoKey) := by
  cases k <;> decide

theorem mem_audioKeys (k : AudioKey) : k ∈ FilterKey.keys (K := AudioKey) := by
  cases k <;> decide

/-- The key of a name. -/
def FilterKey.ofName? {K : Type} [FilterKey K] (name : String) : Option K :=
  (FilterKey.keys (K := K)).find? fun k => FilterKey.name k == name

end Montage
