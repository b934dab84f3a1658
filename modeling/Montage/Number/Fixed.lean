import Montage.Number.Shortest

/-!
Decimal text with a fixed number of places: the exact value rounded to the nearest, a tie going to
the even neighbour.  The trimmed text has no zeros at the end of its places and no negative zero.

Any number of places is written.  Formatters refuse `2 ^ 31` places and more; that bound is left
out, for no text here has more than three.
-/

namespace Montage

/-- The digits of `n / 10 ^ places` with all places written. -/
def placedDigits (n places : Nat) : List Char :=
  let digits := Nat.toDigits 10 n
  let padded := List.replicate (places + 1 - digits.length) '0' ++ digits
  if places = 0 then padded
  else padded.take (padded.length - places) ++ '.' :: padded.drop (padded.length - places)

namespace Binary64

def fixedChars (places : Nat) : Binary64 → List Char
  | .nan => ['n', 'a', 'n']
  | .infinity s => (if s then ['-'] else []) ++ ['i', 'n', 'f']
  | .finite s m _ =>
    (if s then ['-'] else [])
      ++ placedDigits (roundHalfEven (m * Nat.pow 10 places) unitsInOne) places

end Binary64

/-- The text without the zeros that end its places, and without a point that ends it. -/
def trimPlaces (s : List Char) : List Char :=
  if s.contains '.' then
    ((s.reverse.dropWhile (· == '0')).dropWhile (· == '.')).reverse
  else s

/-- Zero has no sign. -/
def dropZeroSign (s : List Char) : List Char := if s = ['-', '0'] then ['0'] else s

namespace Binary64

/-- The trimmed text with at most the given number of places. -/
def trimmed (places : Nat) (x : Binary64) : String :=
  String.ofList (dropZeroSign (trimPlaces (x.fixedChars places)))

end Binary64

namespace Number

/-- The text with a fixed number of places. -/
def fixed (places : Nat) (a : Number) : Except Fault String := do
  return String.ofList ((← a.toBinary64).fixedChars places)

/-- The trimmed text with at most the given number of places. -/
def trimmed (places : Nat) (a : Number) : Except Fault String := do
  return (← a.toBinary64).trimmed places

/-- Milliseconds as trimmed text of seconds. -/
def seconds (a : Number) : Except Fault String := do
  (← a.div (.float (Binary64.ofInt 1000))).trimmed 3

/-- The text of a binary64 value as a parameter: a whole number without a point, all else in the
shortest text. -/
def parameterOf (x : Binary64) : String :=
  match x.isWhole, x.truncate? with
  | true, some n => integerText n
  | _, _ => x.shortest

/-- The text of a number as a parameter. -/
def parameter (a : Number) : Except Fault String := do
  return parameterOf (← a.toBinary64)

end Number

end Montage
