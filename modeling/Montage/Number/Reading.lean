import Montage.Number.Shortest
import Montage.Text.Blank
import Montage.Text.Digit

/-!
Numbers written in text.

White space around the number, the information separators apart, is dropped and digits of every
script count.  The number is a sign, then an infinity, a NaN, or digits with an optional point and
exponent; single low lines may stand between digits.
-/

namespace Montage

/-- The value nearest to a decimal; sizes far out of range need no arithmetic. -/
def Decimal.toBinary64 (negative : Bool) (d : Decimal) : Binary64 :=
  let lead := d.exponent + digitCount d.digits
  if d.digits = 0 ∨ lead < -400 then .finite negative 0 IsCount.zero
  else if 400 < lead then .infinity negative
  else .ofRatio negative d.ratio.1 d.ratio.2

namespace Text

/-- The ASCII digit for a digit of any script; all else is kept. -/
def asciiDigit (c : Char) : Char :=
  match digitValue? c with
  | some n => Char.ofNat (48 + n)
  | none => c

/-- The text without low lines, when each of them stands between two digits. -/
def dropDigitGaps : Option Char → List Char → Option (List Char)
  | prev, [] => if prev == some '_' then none else some []
  | prev, c :: rest =>
    if c == '_' then
      if prev.any Char.isDigit then dropDigitGaps (some c) rest else none
    else if prev == some '_' && !c.isDigit then none
    else (dropDigitGaps (some c) rest).map (c :: ·)

/-- The value of ASCII digits. -/
def digitsValue (s : List Char) : Nat := s.foldl (fun n c => 10 * n + (c.toNat - 48)) 0

/-- A leading sign, and what follows it. -/
def splitSign : List Char → Bool × List Char
  | '-' :: rest => (true, rest)
  | '+' :: rest => (false, rest)
  | s => (false, s)

/-- The exponent that ends a number: nothing, or a letter, a sign and digits. -/
def exponentValue? : List Char → Option Int
  | [] => some 0
  | c :: rest =>
    let (negative, digits) := splitSign rest
    if (c == 'e' || c == 'E') && !digits.isEmpty && digits.all Char.isDigit then
      some (if negative then -(digitsValue digits : Int) else digitsValue digits)
    else none

/-- A decimal without sign. -/
def decimal? (s : List Char) : Option Decimal :=
  let whole := s.takeWhile Char.isDigit
  let rest := s.dropWhile Char.isDigit
  let (places, rest) := match rest with
    | '.' :: r => (r.takeWhile Char.isDigit, r.dropWhile Char.isDigit)
    | r => ([], r)
  if whole.isEmpty && places.isEmpty then none
  else (exponentValue? rest).map fun e => ⟨digitsValue (whole ++ places), e - places.length⟩

/-- White space that may stand around a number. -/
def isNumberPadding (c : Char) : Bool := isBlank c && !isSeparator c

/-- The binary64 value that a text names. -/
def readBinary64? (s : String) : Option Binary64 := do
  let (negative, body) := splitSign ((trimOf isNumberPadding s.toList).map asciiDigit)
  let word := body.map Char.toLower
  if word = "inf".toList ∨ word = "infinity".toList then return .infinity negative
  if word = "nan".toList then return .nan
  let body ← dropDigitGaps none body
  return (← decimal? body).toBinary64 negative

end Text

end Montage
