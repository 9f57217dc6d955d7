/-!
# Time of day

Instants as seconds since the start of 1970 in universal time, and the calendar date and time of
day that they fall on in the Gregorian calendar.
-/

namespace Switchboard

/-- A date with a time of day. -/
structure DateTime where
  year : Int
  month : Int
  day : Int
  hour : Int
  minute : Int
  second : Int
  deriving DecidableEq, Repr

/-- Seconds of a day. -/
def daySeconds : Int := 86400

/-- The date of a day, counted from the start of 1970, as year, month and day. Years are counted
from March, so that the leap day is the last one; 146097 days make 400 years. -/
def civilDate (days : Int) : Int × Int × Int :=
  let z := days + 719468
  let era := z / 146097
  let dayOfEra := z % 146097
  let yearOfEra :=
    (dayOfEra - dayOfEra / 1460 + dayOfEra / 36524 - dayOfEra / 146096) / 365
  let dayOfYear := dayOfEra - (365 * yearOfEra + yearOfEra / 4 - yearOfEra / 100)
  let monthFromMarch := (5 * dayOfYear + 2) / 153
  let day := dayOfYear - (153 * monthFromMarch + 2) / 5 + 1
  let month := if monthFromMarch < 10 then monthFromMarch + 3 else monthFromMarch - 9
  let year := yearOfEra + era * 400
  (if month ≤ 2 then year + 1 else year, month, day)

/-- The day of a date, counted from the start of 1970. -/
def civilDay (year month day : Int) : Int :=
  let y := if month ≤ 2 then year - 1 else year
  let era := y / 400
  let yearOfEra := y % 400
  let monthFromMarch := if 2 < month then month - 3 else month + 9
  let dayOfYear := (153 * monthFromMarch + 2) / 5 + day - 1
  let dayOfEra := yearOfEra * 365 + yearOfEra / 4 - yearOfEra / 100 + dayOfYear
  era * 146097 + dayOfEra - 719468

namespace DateTime

/-- The date and time of day of an instant. -/
def ofSeconds (t : Int) : DateTime :=
  let (year, month, day) := civilDate (t / daySeconds)
  let s := t % daySeconds
  ⟨year, month, day, s / 3600, s / 60 % 60, s % 60⟩

/-- The instant of a date and time of day. -/
def toSeconds (d : DateTime) : Int :=
  civilDay d.year d.month d.day * daySeconds + d.hour * 3600 + d.minute * 60 + d.second

example : ofSeconds 951782400 = ⟨2000, 2, 29, 0, 0, 0⟩ := by decide
example : ofSeconds (-1) = ⟨1969, 12, 31, 23, 59, 59⟩ := by decide
example : (⟨2000, 2, 29, 0, 0, 0⟩ : DateTime).toSeconds = 951782400 := by decide

end DateTime

/-- What a clock shows. -/
structure Clock where
  now : Int
  /-- By how many seconds local time is ahead of universal time at an instant. -/
  zone : Int → Int

end Switchboard
