import Montage.Number.Fixed

/-!
Timecodes: minutes, seconds and hundredths of a second.
-/

namespace Montage

/-- A whole number with at least two digits. -/
def twoDigits (n : Int) : String :=
  let digits := Nat.toDigits 10 n.natAbs
  let width := if n < 0 then 1 else 2
  String.ofList ((if n < 0 then ['-'] else [])
    ++ List.replicate (width - digits.length) '0' ++ digits)

/-- Milliseconds as minutes, seconds and hundredths, all rounded down, when the minutes can be
written. -/
def timecode (milliseconds : Number) : Except Fault String := do
  let (seconds, rest) := milliseconds.floorDivMod 1000
  let total ← seconds.truncate
  let hundredths ← (rest.floorDivMod 10).1.truncate
  return (← writtenInteger (total.fdiv 60)) ++ ":" ++ twoDigits (total.fmod 60) ++ "."
    ++ twoDigits hundredths

end Montage
