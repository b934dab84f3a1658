/-!
Days of the calendar, whose rule of leap years holds back to the year one.
-/

namespace Montage

/-- The digits of a number, at least `width` of them. -/
def Text.padded (width n : Nat) : List Char :=
  let digits := Nat.toDigits 10 n
  List.replicate (width - digits.length) '0' ++ digits

structure Day where
  year : Nat
  month : Nat
  day : Nat
  deriving DecidableEq

namespace Day

def isLeapYear (y : Nat) : Bool := y % 4 == 0 && (y % 100 != 0 || y % 400 == 0)

/-- The number of days in a month of a year. -/
def daysIn (y m : Nat) : Nat :=
  if m = 2 then (if isLeapYear y then 29 else 28)
  else if [4, 6, 9, 11].contains m then 30 else 31

/-- The number of days in the first months of a year. -/
def daysBefore (y : Nat) : Nat → Nat
  | 0 => 0
  | m + 1 => daysBefore y m + daysIn y (m + 1)

/-- The number of days from the first one up to this one, both counted. -/
def count (d : Day) : Nat :=
  let before := d.year - 1
  365 * before + before / 4 - before / 100 + before / 400 + daysBefore d.year (d.month - 1) + d.day

/-- The day as four, two and two digits, joined by dashes. -/
def chars (d : Day) : List Char :=
  Text.padded 4 d.year ++ '-' :: Text.padded 2 d.month ++ '-' :: Text.padded 2 d.day

def text (d : Day) : String := String.ofList d.chars

/-- The year, the month and the day. -/
def parts (d : Day) : List Nat := [d.year, d.month, d.day]

example : (Day.mk 1 1 1).count = 1 := by decide
example : (Day.mk 2000 3 1).count = (Day.mk 2000 2 29).count + 1 := by decide

end Day

end Montage
