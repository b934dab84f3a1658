import Montage.Number.Basic

/-!
Powers of two with a binary64 exponent.

A whole exponent gives an exact power.  Otherwise the power of the fraction is summed as an
exponential series in fixed point, far more precisely than 53 bits, and rounded once.
-/

namespace Montage

/-- The binary places of the fixed-point sums. -/
def seriesPlaces : Nat := 192

def seriesOne : Nat := Nat.pow 2 seriesPlaces

/-- The natural logarithm of two, the sum of `1 / (k * 2 ^ k)`. -/
def logTwo : Nat :=
  (List.range seriesPlaces).foldl (fun sum k => sum + seriesOne / ((k + 1) * Nat.pow 2 (k + 1))) 0

/-- The exponential of a number below one: its first terms and the last one. -/
def expSeries (x : Nat) : Nat → Nat × Nat
  | 0 => (seriesOne, seriesOne)
  | k + 1 =>
    let (sum, term) := expSeries x k
    let next := term * x / ((k + 1) * seriesOne)
    (sum + next, next)

/-- Two to the power of a fraction. -/
def powTwoFraction (f : Nat) : Nat := (expSeries (f * logTwo / seriesOne) 64).1

/-- Two to the power `whole + fraction / unitsInOne`, when the exponent is not far out of range. -/
def powTwoParts (whole : Int) (fraction : Nat) : Binary64 :=
  let scaled := if fraction = 0 then seriesOne
    else powTwoFraction (fraction * seriesOne / unitsInOne)
  .ofRatio false (scaled * unitsInOne * Nat.pow 2 whole.toNat)
    (seriesOne * Nat.pow 2 (-whole).toNat)

/-- Two to the power of a binary64 value. -/
def powTwo : Binary64 → Binary64
  | .nan => .nan
  | .infinity true => .zero
  | .infinity false => .infinity false
  | .finite s m _ =>
    if 2048 * unitsInOne ≤ m then if s then .zero else .infinity false
    else
      let units := Binary64.signedCount s m
      powTwoParts (units.fdiv unitsInOne) (units.fmod unitsInOne).toNat

/-- Two to a power, refused when a finite exponent leads out of range. -/
def powTwo? (y : Binary64) : Except Fault Binary64 :=
  let p := powTwo y
  if p.isInfinite && y.isFinite then .error .powerTooLarge else .ok p

end Montage
