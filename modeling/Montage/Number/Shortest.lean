import Montage.Number.Basic

/-!
The shortest decimal text of a number.

A binary64 value is written with the fewest digits that read back as the same value, and of those
with the ones nearest to it.  The text is positional from `0.0001` up to, not including, `10 ^ 16`.
-/

namespace Montage

/-- The number `digits * 10 ^ exponent`. -/
structure Decimal where
  digits : Nat
  exponent : Int
  deriving DecidableEq

namespace Decimal

/-- The decimal as a quotient of two whole numbers of units. -/
def ratio (d : Decimal) : Nat × Nat :=
  (d.digits * Nat.pow 10 d.exponent.toNat * unitsInOne, Nat.pow 10 (-d.exponent).toNat)

/-- The count of units that the decimal reads as. -/
def count (d : Decimal) : Nat := roundCount d.ratio.1 d.ratio.2

end Decimal

/-- The number of decimal digits of a whole number. -/
def digitCount (n : Nat) : Nat := (Nat.toDigits 10 n).length

/-- The exponent of the leading decimal digit of a positive count of units. -/
def leadingExponent (units : Nat) : Int :=
  (digitCount (units * Nat.pow 10 324 / unitsInOne) : Int) - 325

/-- The decimal with `n` digits that is nearest to a count of units and reads back as it, if one of
the two neighbours with `n` digits does. -/
def decimalWith? (n units : Nat) : Option Decimal :=
  let e := leadingExponent units - n + 1
  let num := units * Nat.pow 10 (-e).toNat
  let den := unitsInOne * Nat.pow 10 e.toNat
  let below : Decimal := ⟨num / den, e⟩
  let above : Decimal := ⟨num / den + 1, e⟩
  match decide (below.count = units), decide (above.count = units) with
  | false, false => none
  | true, false => some below
  | false, true => some above
  | true, true => some ⟨roundHalfEven num den, e⟩

/-- The shortest decimal that reads as a positive count of units; seventeen digits always do. -/
def shortestDecimal (units : Nat) : Decimal :=
  ((List.range 17).findSome? fun k => decimalWith? (k + 1) units).getD ⟨0, 0⟩

/-- The text of digits times a power of ten, with at least one digit after the point. -/
def positionalText (digits : List Char) (exponent : Int) : List Char :=
  if 0 ≤ exponent then digits ++ List.replicate exponent.toNat '0' ++ ['.', '0']
  else
    let places := (-exponent).toNat
    let padded := List.replicate (places + 1 - digits.length) '0' ++ digits
    padded.take (padded.length - places) ++ '.' :: padded.drop (padded.length - places)

/-- The text with one digit before the point and an exponent of two digits or more. -/
def exponentText (digits : List Char) (exponent : Int) : List Char :=
  let lead := exponent + digits.length - 1
  let mantissa := match digits with
    | [] => []
    | [d] => [d]
    | d :: rest => d :: '.' :: rest
  let size := Nat.toDigits 10 lead.natAbs
  let sign := if lead < 0 then '-' else '+'
  mantissa ++ 'e' :: sign :: List.replicate (2 - size.length) '0' ++ size

/-- The decimal without zeros at its end. -/
def stripZeros (digits : List Char) (exponent : Int) : List Char × Int :=
  let zeros := (digits.reverse.takeWhile (· == '0')).length
  (digits.take (digits.length - zeros), exponent + zeros)

def countText (units : Nat) : List Char :=
  if units = 0 then ['0', '.', '0']
  else
    let d := shortestDecimal units
    let (digits, exponent) := stripZeros (Nat.toDigits 10 d.digits) d.exponent
    let lead := exponent + digits.length - 1
    if -4 ≤ lead && lead < 16 then positionalText digits exponent
    else exponentText digits exponent

namespace Binary64

def shortestChars : Binary64 → List Char
  | .nan => ['n', 'a', 'n']
  | .infinity s => (if s then ['-'] else []) ++ ['i', 'n', 'f']
  | .finite s m _ => (if s then ['-'] else []) ++ countText m

/-- The shortest text that reads back as the value. -/
def shortest (x : Binary64) : String := String.ofList x.shortestChars

end Binary64

/-- The decimal text of a whole number. -/
def integerText (n : Int) : String :=
  String.ofList ((if n < 0 then ['-'] else []) ++ Nat.toDigits 10 n.natAbs)

/-- The decimal text of a whole number, when it has no more digits than are written. -/
def writtenInteger (n : Int) : Except Fault String :=
  if Nat.pow 10 Fault.digitLimit ≤ n.natAbs then .error .digitsWritten else .ok (integerText n)

/-- The text of a number: the digits of a whole number, the shortest text of a binary64 value. -/
def Number.text : Number → String
  | .int n => integerText n
  | .float x => x.shortest

end Montage
