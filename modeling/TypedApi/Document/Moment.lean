/-! # Days and moments

Days of the proleptic Gregorian calendar from the year 1 to the year 9999, and moments of such a
day with microseconds and an offset from UTC.
-/
namespace TypedApi

/-- A day of the calendar. -/
structure Day where
  year : Nat
  month : Nat
  day : Nat
deriving DecidableEq, Repr

namespace Day

/-- Whether a year has a 29th of February. -/
def isLeap (year : Nat) : Bool :=
  year % 4 == 0 && (year % 100 != 0 || year % 400 == 0)

/-- The number of days of a month. -/
def monthLength (year month : Nat) : Nat :=
  if month == 2 then (if isLeap year then 29 else 28)
  else if month == 4 || month == 6 || month == 9 || month == 11 then 30
  else 31

/-- Whether a day exists. -/
def exists? (d : Day) : Bool :=
  1 ≤ d.year && d.year ≤ 9999 && 1 ≤ d.month && d.month ≤ 12 && 1 ≤ d.day
    && d.day ≤ monthLength d.year d.month

end Day

/-- A time of a day, where `offset` counts the seconds that local time is ahead of UTC. -/
structure Moment where
  day : Day
  hour : Nat
  minute : Nat
  second : Nat
  microsecond : Nat
  offset : Option Int
deriving DecidableEq, Repr

namespace Moment

/-- Whether a moment exists: an offset is less than a day. -/
def exists? (m : Moment) : Bool :=
  m.day.exists? && m.hour ≤ 23 && m.minute ≤ 59 && m.second ≤ 59 && m.microsecond ≤ 999999
    && m.offset.all fun seconds => seconds.natAbs < 86400

end Moment
end TypedApi
