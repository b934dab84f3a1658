import Montage.Document.Basic

/-!
Dates and moments as they are written.

A date is four digits, two and two, joined by dashes.  A moment is a date, whose month and day may
have one digit, with a time of the day and perhaps an offset from universal time.  Where a tag asks
for a date, month and day may have one digit in both.
-/

namespace Montage.Yaml

/-- Dates: four digits, two and two, joined by dashes. -/
def isDateForm : List Char → Bool
  | [a, b, c, d, '-', e, f, '-', g, h] => [a, b, c, d, e, f, g, h].all Char.isDigit
  | _ => false

/-- Between `least` and `most` digits at the start of a text, and what follows them. -/
def takeDigits (least most : Nat) (s : List Char) : Option (List Char × List Char) :=
  let digits := (s.take most).takeWhile Char.isDigit
  if least ≤ digits.length then some (digits, s.drop digits.length) else none

/-- What follows a mark at the start of a text. -/
def dropMark (mark : Char) : List Char → Option (List Char)
  | c :: rest => if c == mark then some rest else none
  | [] => none

/-- A blank or a tab. -/
def isClockGap (c : Char) : Bool := c == ' ' || c == '\t'

/-- What follows the letter or the gap between a date and its time. -/
def dropClockGap : List Char → Option (List Char)
  | c :: rest =>
    if c == 'T' || c == 't' then some rest
    else if isClockGap c then some (rest.dropWhile isClockGap) else none
  | [] => none

/-- The minutes that an offset is ahead of universal time, gaps before it dropped; no offset stands
for the time of an unknown place. -/
def offset? (s : List Char) : Option (Option Int) :=
  match s, s.dropWhile isClockGap with
  | [], _ => some none
  | _, ['Z'] => some (some 0)
  | _, sign :: rest =>
    if sign == '+' || sign == '-' then do
      let (hours, rest) ← takeDigits 1 2 rest
      let minutes ←
        if rest.isEmpty then pure []
        else do
          let (minutes, rest) ← takeDigits 2 2 (← dropMark ':' rest)
          if rest.isEmpty then some minutes else none
      let ahead : Int := 60 * Text.digitsValue hours + Text.digitsValue minutes
      return some (if sign == '-' then -ahead else ahead)
    else none
  | _, [] => none

/-- The first six places of a second as a number of millionths. -/
def microOf (places : List Char) : Nat :=
  Text.digitsValue ((places ++ List.replicate 6 '0').take 6)

/-- The day at the start of a text, its month and day of one or two digits, and what follows. -/
def day? (s : List Char) : Option (Day × List Char) := do
  let (year, s) ← takeDigits 4 4 s
  let (month, s) ← takeDigits 1 2 (← dropMark '-' s)
  let (day, s) ← takeDigits 1 2 (← dropMark '-' s)
  return (⟨Text.digitsValue year, Text.digitsValue month, Text.digitsValue day⟩, s)

/-- The moment that a text names. -/
def moment? (s : List Char) : Option Moment := do
  let (day, s) ← day? s
  let (hour, s) ← takeDigits 1 2 (← dropClockGap s)
  let (minute, s) ← takeDigits 2 2 (← dropMark ':' s)
  let (second, s) ← takeDigits 2 2 (← dropMark ':' s)
  let (places, s) := match s with
    | '.' :: rest => (rest.takeWhile Char.isDigit, rest.dropWhile Char.isDigit)
    | s => ([], s)
  let offset ← offset? s
  let number := Text.digitsValue
  return ⟨day, number hour, number minute, number second, microOf places, offset⟩

/-- Moments: dates with a time of the day. -/
def isMomentForm (s : List Char) : Bool := (moment? s).isSome

/-- Refuses a day that the calendar lacks. -/
def checkDay (d : Day) : Except Fault Unit :=
  if d.year = 0 then .error (.date "year 0 is out of range")
  else if d.month = 0 ∨ 12 < d.month then .error (.date "month must be in 1..12")
  else if d.day = 0 ∨ Day.daysIn d.year d.month < d.day then
    .error (.date "day is out of range for month")
  else .ok ()

/-- Refuses an offset of a day or more. -/
def checkOffset (m : Moment) : Except Fault Unit :=
  match m.offset with
  | some minutes =>
    if Moment.minutesInDay ≤ minutes.natAbs then .error (.offsetRange minutes) else .ok ()
  | none => .ok ()

/-- Refuses a moment that the calendar or the clock lacks; the offset is looked at first. -/
def checkMoment (m : Moment) : Except Fault Unit := do
  checkOffset m
  checkDay m.day
  if 23 < m.hour then throw (.date "hour must be in 0..23")
  if 59 < m.minute then throw (.date "minute must be in 0..59")
  if 59 < m.second then throw (.date "second must be in 0..59")

/-- The date or the moment that a text names. -/
def dateValue (s : List Char) : Except Fault Document :=
  match day? s, moment? s with
  | some (d, []), _ => do
    checkDay d
    return .date d
  | _, some m => do
    checkMoment m
    return .moment m
  | _, none => .error .dateText

example : isDateForm "2020-01-02".toList = true := by decide
example : isMomentForm "2020-1-2 3:04:05".toList = true := by decide
example : isMomentForm "2020-01-02".toList = false := by decide

end Montage.Yaml
