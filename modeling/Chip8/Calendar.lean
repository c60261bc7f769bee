import Chip8.Text.Numeral

/-!
# The calendar

Days of the Gregorian calendar, carried back to the year 1, and moments : a day with a time of day and perhaps
an offset from universal time. Two moments with an offset are the same if they are the same in universal
time, and one with an offset is never the same as one without (`Moment.same`).
-/

namespace Chip8

/-- A day of the calendar. -/
structure Day where
  year : Nat
  month : Nat
  day : Nat
deriving DecidableEq, Inhabited

/-- A time of day. -/
structure TimeOfDay where
  hour : Nat
  minute : Nat
  second : Nat
  microsecond : Nat
deriving DecidableEq, Inhabited

/-- A time on a day, with the minutes that it is ahead of universal time if they are known. -/
structure Moment where
  day : Day
  time : TimeOfDay
  offset : Option Int
deriving DecidableEq, Inhabited

namespace Calendar

/-- Why there is no such day or moment. -/
inductive Error where
  | year (n : Nat)
  | month
  | day
  | hour
  | minute
  | second
  /-- An offset of a day or more, in minutes. -/
  | offset (minutes : Int)
deriving DecidableEq

/-- The minutes in a day. -/
def dayMinutes : Int := 1440

/-- A span of minutes in whole days, which may be negative, and the seconds above them. -/
def spanText (minutes : Int) : String :=
  let parts := [("days", minutes / dayMinutes), ("seconds", 60 * (minutes % dayMinutes))]
  let shown := parts.filterMap fun (name, n) =>
    if n = 0 then none else some (name ++ "=" ++ Text.decimal n)
  "datetime.timedelta(" ++ (if shown = [] then "0" else ", ".intercalate shown) ++ ")"

/-- The text of an error. -/
def Error.message : Error → String
  | .year n => "year " ++ Text.decimal n ++ " is out of range"
  | .month => "month must be in 1..12"
  | .day => "day is out of range for month"
  | .hour => "hour must be in 0..23"
  | .minute => "minute must be in 0..59"
  | .second => "second must be in 0..59"
  | .offset minutes =>
    "offset must be a timedelta strictly between -timedelta(hours=24) and timedelta(hours=24), not " ++
      spanText minutes ++ "."

/-- Whether a year has a 29th of February. -/
def isLeap (year : Nat) : Bool := year % 4 == 0 && (year % 100 != 0 || year % 400 == 0)

/-- The days of a month. -/
def daysIn (year month : Nat) : Nat :=
  if month = 2 then if isLeap year then 29 else 28
  else if month = 4 ∨ month = 6 ∨ month = 9 ∨ month = 11 then 30
  else 31

/-- Refuse a day that the calendar does not have. -/
def checkDay (d : Day) : Except Error Unit :=
  if d.year = 0 then .error (.year d.year)
  else if d.month = 0 ∨ 12 < d.month then .error .month
  else if d.day = 0 ∨ daysIn d.year d.month < d.day then .error .day
  else .ok ()

/-- Refuse a time that no day has. -/
def checkTime (t : TimeOfDay) : Except Error Unit :=
  if 23 < t.hour then .error .hour
  else if 59 < t.minute then .error .minute
  else if 59 < t.second then .error .second
  else .ok ()

/-- Refuse an offset of a day or more. -/
def checkOffset (offset : Option Int) : Except Error Unit :=
  match offset with
  | some minutes => if minutes.natAbs < dayMinutes then .ok () else .error (.offset minutes)
  | none => .ok ()

/-- Refuse a moment that does not exist. -/
def checkMoment (m : Moment) : Except Error Unit := do
  checkOffset m.offset
  checkDay m.day
  checkTime m.time

end Calendar

/-- The days from the first day of the year 1 to a day. -/
def Day.number (d : Day) : Nat :=
  let years := d.year - 1
  let months := (List.range (d.month - 1)).foldl
    (fun (days m : Nat) => days + Calendar.daysIn d.year (m + 1)) 0
  365 * years + years / 4 - years / 100 + years / 400 + months + d.day - 1

/-- The microseconds from the beginning of the year 1, in universal time, to a moment of an offset. -/
def Moment.microseconds (m : Moment) (offset : Int) : Int :=
  let minutes : Int := 1440 * m.day.number + 60 * m.time.hour + m.time.minute - offset
  1000000 * (60 * minutes + m.time.second) + m.time.microsecond

/-- Whether two moments are the same. -/
def Moment.same (a b : Moment) : Bool :=
  match a.offset, b.offset with
  | some x, some y => a.microseconds x == b.microseconds y
  | none, none => a == b
  | _, _ => false

namespace Text

/-- Numbers side by side, each of two digits at least. -/
def clock (separator : String) (numbers : List Nat) : String :=
  separator.intercalate (numbers.map fun (n : Nat) => String.ofList (zeroPadded 10 2 n))

end Text

/-- A day, with dashes between its numbers. -/
def Day.text (d : Day) : String := Text.clock "-" [d.year, d.month, d.day]

/-- A moment, with its day and time and without its offset. -/
def Moment.text (m : Moment) : String :=
  m.day.text ++ " " ++ Text.clock ":" [m.time.hour, m.time.minute, m.time.second]

end Chip8
