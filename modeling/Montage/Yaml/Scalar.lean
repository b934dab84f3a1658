import Montage.Failure
import Montage.Text.Base64
import Montage.Text.LetterCase
import Montage.Yaml.Date
import Montage.Yaml.Token.Quoted

/-!
Kinds of scalars.

A plain scalar without a tag is of the first kind whose form it has: a switch, a binary64 value, a
whole number, a merge mark, null, a date or a value mark; else it is a text.  Numbers may be
written in base sixty, their places joined by colons, and with low lines, which do not count.
-/

namespace Montage.Yaml

inductive Tag where
  | null | bool | int | float | date | text | bytes
  | list | map | set
  /-- Keys with values, in order and perhaps twice. -/
  | pairs
  /-- The key whose value is merged into its mapping. -/
  | merge
  /-- The key of the value that stands for a mapping. -/
  | equals
  | unknown
  deriving DecidableEq

/-- The tag with a full name. -/
def Tag.ofName (name : String) : Tag :=
  ([("null", null), ("bool", bool), ("int", int), ("float", float), ("timestamp", date),
    ("str", text), ("binary", bytes), ("seq", list), ("map", map), ("set", set),
    ("omap", pairs), ("pairs", pairs), ("merge", merge), ("value", equals)].lookup
      (String.ofList (name.toList.drop "tag:yaml.org,2002:".length))).filter
    (fun _ => name.startsWith "tag:yaml.org,2002:") |>.getD unknown

def nullWords : List String := ["", "~", "null", "Null", "NULL"]

def trueWords : List String := ["yes", "Yes", "YES", "true", "True", "TRUE", "on", "On", "ON"]

def falseWords : List String :=
  ["no", "No", "NO", "false", "False", "FALSE", "off", "Off", "OFF"]

def infinityWords : List String := [".inf", ".Inf", ".INF"]

def nanWords : List String := [".nan", ".NaN", ".NAN"]

/-- A text without a sign at its start. -/
def dropSign (s : List Char) : List Char := (Text.splitSign s).2

/-- The parts of a text between colons. -/
def colonParts : List Char → List (List Char)
  | [] => [[]]
  | c :: rest =>
    match colonParts rest with
    | [] => [[c]]
    | part :: more => if c == ':' then [] :: part :: more else (c :: part) :: more

/-- Digits and low lines. -/
def isSpacedDigit (c : Char) : Bool := c.isDigit || c == '_'

/-- Digits and low lines that begin with a digit. -/
def isSpacedNumber (s : List Char) : Bool := s.head?.any Char.isDigit && s.all isSpacedDigit

/-- A place of a number in base sixty after the first. -/
def isSixty : List Char → Bool
  | [d] => d.isDigit
  | [t, d] => '0' ≤ t && t ≤ '5' && d.isDigit
  | _ => false

/-- Whole numbers: in base two, eight, ten, sixteen or sixty. -/
def isIntForm (s : List Char) : Bool :=
  match dropSign s with
  | '0' :: 'b' :: c :: rest => (c :: rest).all fun d => d == '0' || d == '1' || d == '_'
  | '0' :: 'x' :: c :: rest => (c :: rest).all fun d => (hexDigit? d).isSome || d == '_'
  | ['0'] => true
  | '0' :: rest => rest.all fun d => ('0' ≤ d && d ≤ '7') || d == '_'
  | body =>
    match colonParts body with
    | first :: rest => isSpacedNumber first && first.head? != some '0' && rest.all isSixty
    | [] => false

/-- Nothing, or an exponent with a sign. -/
def isExponent : List Char → Bool
  | [] => true
  | e :: sign :: digits =>
    (e == 'e' || e == 'E') && (sign == '+' || sign == '-')
      && !digits.isEmpty && digits.all Char.isDigit
  | _ => false

/-- What stands before the point of a text, and what stands behind it. -/
def splitPoint (s : List Char) : Option (List Char × List Char) :=
  match s.dropWhile (· != '.') with
  | '.' :: behind => some (s.takeWhile (· != '.'), behind)
  | _ => none

/-- Numbers with a point, the places before it in base ten or sixty. -/
def isPointForm (s : List Char) : Bool :=
  match splitPoint (dropSign s) with
  | none => false
  | some ([], behind) =>
    s.head? == some '.' && behind.head?.any Char.isDigit
      && isExponent (behind.dropWhile isSpacedDigit)
  | some (before, behind) =>
    match colonParts before with
    | [whole] => isSpacedNumber whole && isExponent (behind.dropWhile isSpacedDigit)
    | first :: rest => isSpacedNumber first && rest.all isSixty && behind.all isSpacedDigit
    | [] => false

def isFloatForm (s : List Char) : Bool :=
  isPointForm s || infinityWords.contains (String.ofList (dropSign s))
    || nanWords.contains (String.ofList s)

/-- The text without a line feed at its end, which the form of a scalar may have. -/
def dropLineFeed (s : List Char) : List Char :=
  if s.length != 1 && s.getLast? == some '\n' then s.dropLast else s

/-- The kind of a plain scalar. -/
def Tag.ofPlain (written : List Char) : Tag :=
  let s := dropLineFeed written
  let word := String.ofList s
  if trueWords.contains word || falseWords.contains word then bool
  else if isFloatForm s then float
  else if isIntForm s then int
  else if word == "<<" then merge
  else if nullWords.contains word then null
  else if isDateForm s || isMomentForm s then date
  else if word == "=" then equals
  else text

/-- The text without low lines. -/
def dropLowLines (s : List Char) : List Char := s.filter (· != '_')

/-- The value of a digit of a base. -/
def digitIn? (base : Nat) (c : Char) : Option Nat :=
  (hexDigit? c).filter (decide <| · < base)

/-- The letter that may follow a zero before the digits of a base. -/
def baseLetter : Nat → Option Char
  | 2 => some 'b'
  | 8 => some 'o'
  | 16 => some 'x'
  | _ => none

/-- The digits without the mark of their base. -/
def dropBaseMark (base : Nat) : List Char → List Char
  | '0' :: c :: rest => if some c.toLower == baseLetter base then rest else '0' :: c :: rest
  | s => s

/-- Refuses a text in base ten with more digits than are read. -/
def checkDigits (base : Nat) (s : List Char) : Except Fault Unit :=
  let count := (s.takeWhile Char.isDigit).length
  if base = 10 ∧ Fault.digitLimit < count then .error (.digitsRead count) else .ok ()

/-- The whole number that a text names in a base, a sign before it. -/
def readInteger (base : Nat) (s : List Char) : Except Fault Int := do
  let (negative, written) :=
    Text.splitSign ((Text.trimOf Text.isNumberPadding s).map Text.asciiDigit)
  checkDigits base written
  let digits := dropBaseMark base written
  match digits.foldlM (fun n c => (digitIn? base c).map (base * n + ·)) 0, digits.isEmpty with
  | some n, false => return if negative then -(n : Int) else n
  | _, _ => throw (.integerText base (String.ofList s))

/-- The whole number of a scalar without its sign. -/
def wholeValue (s : List Char) : Except Fault Int :=
  match s with
  | [] => .error .emptyNumber
  | ['0'] => .ok 0
  | '0' :: 'b' :: rest => readInteger 2 rest
  | '0' :: 'x' :: rest => readInteger 16 rest
  | '0' :: _ => readInteger 8 s
  | _ => do
    let places ← (colonParts s).mapM (readInteger 10)
    return places.foldl (fun n place => 60 * n + place) 0

/-- A part of a number with a point. -/
def readPart (s : List Char) : Except Fault Binary64 :=
  match Text.readBinary64? (String.ofList s) with
  | some x => .ok x
  | none => .error (.numberText (String.ofList s))

/-- The sum of places in base sixty, the last place first. -/
def sixtySum (weight : Nat) (sum : Binary64) : List Binary64 → Except Fault Binary64
  | [] => .ok sum
  | place :: rest => do
    sixtySum (60 * weight) (sum.add (place.mul (← (Number.int weight).toBinary64))) rest

/-- The binary64 value of a scalar in small letters without its sign. -/
def floatValue (s : List Char) : Except Fault Binary64 :=
  if s = ".inf".toList then .ok (.infinity false)
  else if s = ".nan".toList then .ok .nan
  else
    match colonParts s with
    | [whole] => readPart whole
    | parts => do sixtySum 1 .zero (← parts.mapM readPart).reverse

/-- The truth value of a word, whatever the case of its letters. -/
def truthValue (s : List Char) : Except Fault Bool :=
  let word := String.ofList (Text.lower s)
  if trueWords.contains word then .ok true
  else if falseWords.contains word then .ok false
  else .error (.truthWord word)

/-- A sign, and what follows it, of a number that is not empty. -/
def signOf (s : List Char) : Except Fault (Bool × List Char) :=
  if s.isEmpty then .error .emptyNumber else .ok (Text.splitSign s)

/-- The value of a scalar with a tag. -/
def Tag.value (tag : Tag) (s : List Char) : Except Failure Document :=
  match tag with
  | .null => .ok .null
  | .text => .ok (.text (String.ofList s))
  | .bool => do return .bool (← truthValue s)
  | .int => do
    let (negative, body) ← signOf (dropLowLines s)
    let n ← wholeValue body
    return .number (.int (if negative then -n else n))
  | .float => do
    let (negative, body) ← signOf (Text.lower (dropLowLines s))
    let x ← floatValue body
    return .number (.float (if negative then x.neg else x))
  | .date => dateValue (dropLineFeed s)
  | .bytes =>
    match Text.base64? s, s.all (·.toNat < 128) with
    | some bs, true => .ok (.bytes bs)
    | _, _ => .error .malformed
  | .list | .map | .set | .pairs | .merge | .equals | .unknown => .error .malformed

/-- Tags of collections. -/
def Tag.isCollection : Tag → Bool
  | .list | .map | .set | .pairs => true
  | _ => false

example : Tag.ofPlain "1_000".toList = .int := by decide
example : Tag.ofPlain "1e3".toList = .text := by decide
example : Tag.ofPlain "1.e+3".toList = .float := by decide
example : Tag.ofPlain "190:20:30".toList = .int := by decide
example : Tag.ofPlain "08".toList = .text := by decide

end Montage.Yaml
