import Montage.Calendar.Day

/-!
Moments: a day, a time of the day, and perhaps an offset from universal time.

Two moments with an offset are the same when they are the same instant, two without one when they
are the same by the clock; a moment with an offset is never the same as one without.
-/

namespace Montage

structure Moment where
  day : Day
  hour : Nat
  minute : Nat
  second : Nat
  /-- Millionths of a second. -/
  micro : Nat
  /-- Minutes ahead of universal time; none for the time of an unknown place. -/
  offset : Option Int
  deriving DecidableEq

namespace Moment

def minutesInDay : Nat := 1440

/-- Millionths of a second from the start of the first day, by universal time if the offset is
known. -/
def instant (m : Moment) : Int :=
  let minutes : Int := minutesInDay * m.day.count + 60 * m.hour + m.minute - m.offset.getD 0
  (60 * minutes + m.second) * 1000000 + m.micro

def agrees (a b : Moment) : Bool := a.offset.isSome == b.offset.isSome && a.instant == b.instant

/-- An offset as a sign, hours and minutes. -/
def offsetChars (minutes : Int) : List Char :=
  (if minutes < 0 then '-' else '+') :: Text.padded 2 (minutes.natAbs / 60)
    ++ ':' :: Text.padded 2 (minutes.natAbs % 60)

/-- The moment in digits; millionths and an offset only if there are any. -/
def text (m : Moment) : String :=
  String.ofList (m.day.chars
    ++ ' ' :: Text.padded 2 m.hour ++ ':' :: Text.padded 2 m.minute
    ++ ':' :: Text.padded 2 m.second
    ++ (if m.micro = 0 then [] else '.' :: Text.padded 6 m.micro)
    ++ (m.offset.map offsetChars).getD [])

/-- Numbers between commas. -/
def listed (ns : List Nat) : String :=
  ", ".intercalate (ns.map fun n => String.ofList (Text.padded 1 n))

/-- A whole number of days, a minus sign before a negative one. -/
def dayChars (days : Int) : List Char :=
  (if days < 0 then ['-'] else []) ++ Text.padded 1 days.natAbs

/-- A span of minutes as whole days, rounded down, and the seconds left over. -/
def spanLiteral (minutes : Int) : String :=
  let days := minutes / minutesInDay
  let seconds := 60 * (minutes % minutesInDay).toNat
  let parts :=
    (if days = 0 then [] else ["days=" ++ String.ofList (dayChars days)])
      ++ (if seconds = 0 then [] else ["seconds=" ++ String.ofList (Text.padded 1 seconds)])
  "datetime.timedelta(" ++ (if parts.isEmpty then "0" else ", ".intercalate parts) ++ ")"

/-- An offset inside a collection. -/
def offsetLiteral (minutes : Int) : String :=
  if minutes = 0 then "datetime.timezone.utc"
  else "datetime.timezone(" ++ spanLiteral minutes ++ ")"

/-- A moment inside a collection, by its parts; the last ones are left out when they are zero. -/
def literal (m : Moment) : String :=
  let clock :=
    if m.micro = 0 then
      if m.second = 0 then [m.hour, m.minute] else [m.hour, m.minute, m.second]
    else [m.hour, m.minute, m.second, m.micro]
  let offset := (m.offset.map fun minutes => ", tzinfo=" ++ offsetLiteral minutes).getD ""
  "datetime.datetime(" ++ listed (m.day.parts ++ clock) ++ offset ++ ")"

end Moment

/-- A day inside a collection. -/
def Day.literal (d : Day) : String := "datetime.date(" ++ Moment.listed d.parts ++ ")"

end Montage
