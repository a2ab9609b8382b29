/-!
# Dates and times

Days of the Gregorian calendar and times of day with an optional offset from universal time, with
the rule for which of them exist and the standard text of each.
-/

namespace MemberOrder

/-- A day of the Gregorian calendar. -/
structure Date where
  year : Nat
  month : Nat
  day : Nat
deriving DecidableEq, Repr

/-- A day with a time of day, down to the microsecond. -/
structure Moment where
  date : Date
  hour : Nat
  minute : Nat
  second : Nat
  micro : Nat
  /-- Seconds ahead of universal time, if the time says so. -/
  offset : Option Int
deriving DecidableEq, Repr

/-- Why a date or time that is written correctly does not exist. -/
inductive CalendarFault
  | year (value : Nat)
  | month
  | day
  | hour
  | minute
  | second
  | offset (seconds : Int)
deriving DecidableEq, Repr

namespace Date

def isLeap (year : Nat) : Bool := year % 4 == 0 && (year % 100 != 0 || year % 400 == 0)

/-- Days of a month; a number that is no month has none. -/
def daysInMonth (year : Nat) : Nat → Nat
  | 2 => if isLeap year then 29 else 28
  | 4 | 6 | 9 | 11 => 30
  | 1 | 3 | 5 | 7 | 8 | 10 | 12 => 31
  | _ => 0

/-- The first part that puts a date outside the calendar. -/
def fault? (d : Date) : Option CalendarFault :=
  if d.year = 0 ∨ 9999 < d.year then some (.year d.year)
  else if d.month = 0 ∨ 12 < d.month then some .month
  else if d.day = 0 ∨ daysInMonth d.year d.month < d.day then some .day
  else none

/-- Days before the date since the calendar's first day. -/
def ordinal (d : Date) : Nat :=
  let years := d.year - 1
  years * 365 + years / 4 - years / 100 + years / 400 +
    ((List.range (d.month - 1)).map fun m => daysInMonth d.year (m + 1)).foldr (· + ·) 0 + d.day

/-- A number with zeros in front up to a number of places. -/
def padded (places n : Nat) : String :=
  let figures := toString n
  String.ofList (List.replicate (places - figures.length) '0') ++ figures

/-- Year, month and day with hyphens. -/
def text (d : Date) : String :=
  padded 4 d.year ++ "-" ++ padded 2 d.month ++ "-" ++ padded 2 d.day

end Date

namespace Moment

/-- The first part that puts a moment outside the calendar or the clock. -/
def fault? (m : Moment) : Option CalendarFault :=
  let offsetFault := m.offset.bind fun seconds =>
    if seconds.natAbs < 86400 then none else some (.offset seconds)
  offsetFault.or <| m.date.fault?.or <|
    if 23 < m.hour then some .hour
    else if 59 < m.minute then some .minute
    else if 59 < m.second then some .second
    else none

/-- Microseconds on the moment's own clock since the calendar's first day. -/
def localMicros (m : Moment) : Int :=
  (((m.date.ordinal * 24 + m.hour) * 60 + m.minute) * 60 + m.second) * 1000000 + m.micro

/-- Microseconds from one moment to another, if both are on one clock or in universal time. -/
def microsBetween? (a b : Moment) : Option Int :=
  match a.offset, b.offset with
  | none, none => some (b.localMicros - a.localMicros)
  | some p, some q => some ((b.localMicros - q * 1000000) - (a.localMicros - p * 1000000))
  | _, _ => none

/-- Whether two moments are the same. -/
def same (a b : Moment) : Bool := a.microsBetween? b == some 0

/-- Whether a moment is before another one that it can be compared with. -/
def isBefore? (a b : Moment) : Option Bool := (a.microsBetween? b).map (0 < ·)

/-- An offset from universal time with its sign. -/
def offsetText (seconds : Int) : String :=
  let total := seconds.natAbs
  (if seconds < 0 then "-" else "+") ++ Date.padded 2 (total / 3600) ++ ":" ++
    Date.padded 2 (total / 60 % 60) ++
    if total % 60 = 0 then "" else ":" ++ Date.padded 2 (total % 60)

/-- Date and time with a blank between, microseconds and offset only where there are any. -/
def text (m : Moment) : String :=
  m.date.text ++ " " ++ Date.padded 2 m.hour ++ ":" ++ Date.padded 2 m.minute ++ ":" ++
    Date.padded 2 m.second ++ (if m.micro = 0 then "" else "." ++ Date.padded 6 m.micro) ++
    (m.offset.map offsetText).getD ""

end Moment

/-- An interval of whole seconds in days and seconds of the last day. -/
def intervalText (seconds : Int) : String :=
  let days := seconds / 86400
  let rest := seconds % 86400
  let parts := (if days = 0 then [] else ["days=" ++ toString days]) ++
    (if rest = 0 then [] else ["seconds=" ++ toString rest])
  "datetime.timedelta(" ++ (if parts.isEmpty then "0" else String.intercalate ", " parts) ++ ")"

/-- The wording of each way in which a date or time fails to exist. -/
def CalendarFault.message : CalendarFault → String
  | .year value => "year " ++ toString value ++ " is out of range"
  | .month => "month must be in 1..12"
  | .day => "day is out of range for month"
  | .hour => "hour must be in 0..23"
  | .minute => "minute must be in 0..59"
  | .second => "second must be in 0..59"
  | .offset seconds =>
    "offset must be a timedelta strictly between -timedelta(hours=24) and " ++
      "timedelta(hours=24), not " ++ intervalText seconds ++ "."

end MemberOrder
