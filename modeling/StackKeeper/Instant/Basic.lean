/-!
# Instants

A point in time to the nanosecond, as its calendar fields in UTC (proleptic Gregorian calendar,
years from -262143 to 262142). A leap second is written as second 60 of a minute: its nanosecond
field is at least one billion while the second field stays 59.
-/
namespace StackKeeper

abbrev Instant.secondNanos : Nat := 1000000000

/-- Whether the year has a 29th of February. -/
def Instant.isLeapYear (year : Int) : Bool :=
  year % 4 == 0 && (year % 100 != 0 || year % 400 == 0)

/-- The number of days of a month. -/
def Instant.daysInMonth (year : Int) (month : Nat) : Nat :=
  match month with
  | 2 => if isLeapYear year then 29 else 28
  | 4 | 6 | 9 | 11 => 30
  | _ => 31

def Instant.isCalendarDay (year : Int) (month day : Nat) : Bool :=
  -262143 ≤ year && year ≤ 262142 && 1 ≤ month && month ≤ 12 && 1 ≤ day &&
    day ≤ daysInMonth year month

def Instant.isTimeOfDay (hour minute second nano : Nat) : Bool :=
  hour < 24 && minute < 60 && second < 60 &&
    (nano < secondNanos || (second == 59 && nano < 2 * secondNanos))

/-- A point in time as its calendar fields in UTC. -/
structure Instant where
  year : Int
  month : Nat
  day : Nat
  hour : Nat
  minute : Nat
  second : Nat
  nano : Nat
  validDate : Instant.isCalendarDay year month day = true
  validTime : Instant.isTimeOfDay hour minute second nano = true
deriving DecidableEq

namespace Instant

/-- The instant with the given fields, if there is one. -/
def ofFields? (year : Int) (month day hour minute second nano : Nat) : Option Instant :=
  if hd : isCalendarDay year month day = true then
    if ht : isTimeOfDay hour minute second nano = true then
      some ⟨year, month, day, hour, minute, second, nano, hd, ht⟩
    else none
  else none

/-- The day before a date. -/
def previousDay (year : Int) (month day : Nat) : Int × Nat × Nat :=
  if 1 < day then (year, month, day - 1)
  else if 1 < month then (year, month - 1, daysInMonth year (month - 1))
  else (year - 1, 12, 31)

/-- The day after a date. -/
def nextDay (year : Int) (month day : Nat) : Int × Nat × Nat :=
  if day < daysInMonth year month then (year, month, day + 1)
  else if month < 12 then (year, month + 1, 1)
  else (year + 1, 1, 1)

/-- The instant of local fields that are ahead of UTC by an offset of less than a day. -/
def ofLocal? (year : Int) (month day hour minute second nano : Nat) (offsetMinutes : Int) :
    Option Instant :=
  if isCalendarDay year month day then
    let total : Int := hour * 60 + minute - offsetMinutes
    let minutes := (total % 1440).toNat
    let date :=
      if total < 0 then previousDay year month day
      else if 1440 ≤ total then nextDay year month day
      else (year, month, day)
    ofFields? date.1 date.2.1 date.2.2 (minutes / 60) (minutes % 60) second nano
  else none

/-- The days from the first of March of year 0 to a date. -/
def dayNumber (year : Int) (month day : Nat) : Int :=
  let y := if month ≤ 2 then year - 1 else year
  let m : Int := if month ≤ 2 then month + 9 else (month : Int) - 3
  365 * y + y.fdiv 4 - y.fdiv 100 + y.fdiv 400 + (153 * m + 2) / 5 + day - 1

/-- The nanoseconds from the first of March of year 0. -/
def nanosSinceOrigin (t : Instant) : Int :=
  ((dayNumber t.year t.month t.day * 24 + t.hour) * 60 + t.minute) * 60 * secondNanos +
    t.second * secondNanos + t.nano

/-- The whole seconds from one instant to another, toward zero. -/
def secondsUntil (start finish : Instant) : Int :=
  (finish.nanosSinceOrigin - start.nanosSinceOrigin).tdiv secondNanos

/-- The year, month and day of a day number. -/
def dateOfDayNumber (n : Int) : Int × Nat × Nat :=
  let era := n.fdiv 146097
  let dayOfEra := n - era * 146097
  let yearOfEra :=
    (dayOfEra - dayOfEra / 1460 + dayOfEra / 36524 - dayOfEra / 146096) / 365
  let dayOfYear := dayOfEra - (365 * yearOfEra + yearOfEra / 4 - yearOfEra / 100)
  let m := (5 * dayOfYear + 2) / 153
  let day := (dayOfYear - (153 * m + 2) / 5 + 1).toNat
  let month := (if m < 10 then m + 3 else m - 9).toNat
  let year := yearOfEra + era * 400
  (if month ≤ 2 then year + 1 else year, month, day)

def unixDay : Int := dayNumber 1970 1 1

/-- The instant so many seconds after the start of 1970, if it is in the range of years. -/
def ofUnixSeconds? (secs : Int) : Option Instant :=
  let (year, month, day) := dateOfDayNumber (unixDay + secs.fdiv 86400)
  let rest := (secs.fmod 86400).toNat
  ofFields? year month day (rest / 3600) (rest / 60 % 60) (rest % 60) 0

theorem ofFields?_self (t : Instant) :
    ofFields? t.year t.month t.day t.hour t.minute t.second t.nano = some t := by
  rw [ofFields?, dif_pos t.validDate, dif_pos t.validTime]

/-- Fields without an offset are those of the instant. -/
theorem ofLocal?_zero (t : Instant) :
    ofLocal? t.year t.month t.day t.hour t.minute t.second t.nano 0 = some t := by
  have ht : isTimeOfDay t.hour t.minute t.second t.nano = true := t.validTime
  simp only [isTimeOfDay, Bool.and_eq_true, decide_eq_true_eq] at ht
  have h1 : ¬ ((t.hour : Int) * 60 + t.minute - 0 < 0) := by omega
  have h2 : ¬ ((1440 : Int) ≤ t.hour * 60 + t.minute - 0) := by omega
  have h3 : (((t.hour : Int) * 60 + t.minute - 0) % 1440).toNat = t.hour * 60 + t.minute := by
    omega
  simp only [ofLocal?, t.validDate, if_true, h1, h2, if_false, h3]
  rw [show (t.hour * 60 + t.minute) / 60 = t.hour by omega,
    show (t.hour * 60 + t.minute) % 60 = t.minute by omega, ofFields?_self]

end Instant
end StackKeeper
