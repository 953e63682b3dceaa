/-!
# Calendar dates

Days are counted from the first of January 1970 and converted to dates of the
Gregorian calendar, which is taken to hold at all times. The conversion works in
eras of four hundred years that begin in March, so that the leap day is the last
day of a year. `Calendar.text` writes an instant as a date and time of day at an
offset from universal time, with the offset behind it.
-/

namespace CommitReports.Calendar

/-- A date of the Gregorian calendar. -/
structure Date where
  year : Int
  /-- From 1 to 12. -/
  month : Nat
  /-- From 1 to 31. -/
  day : Nat
  deriving DecidableEq, Repr

/-- The days of an era of four hundred years. -/
def daysPerEra : Int := 146097

/-- The days from the first of March of the year 0 to the first of January 1970. -/
def epochShift : Int := 719468

/-- The date of a day. -/
def Date.ofDays (days : Int) : Date :=
  let shifted := days + epochShift
  let era := shifted / daysPerEra
  let dayOfEra := (shifted % daysPerEra).toNat
  let yearOfEra := (dayOfEra - dayOfEra / 1460 + dayOfEra / 36524 - dayOfEra / 146096) / 365
  let dayOfYear := dayOfEra - (365 * yearOfEra + yearOfEra / 4 - yearOfEra / 100)
  let shiftedMonth := (5 * dayOfYear + 2) / 153
  let day := dayOfYear - (153 * shiftedMonth + 2) / 5 + 1
  let month := if shiftedMonth < 10 then shiftedMonth + 3 else shiftedMonth - 9
  let year := era * 400 + yearOfEra + if month ≤ 2 then 1 else 0
  { year, month, day }

/-- The day of a date. -/
def Date.toDays (date : Date) : Int :=
  let year := if date.month ≤ 2 then date.year - 1 else date.year
  let era := year / 400
  let yearOfEra := (year % 400).toNat
  let shiftedMonth := if 2 < date.month then date.month - 3 else date.month + 9
  let dayOfYear := (153 * shiftedMonth + 2) / 5 + date.day - 1
  let dayOfEra := yearOfEra * 365 + yearOfEra / 4 - yearOfEra / 100 + dayOfYear
  era * daysPerEra + dayOfEra - epochShift

/-- The names of the days of the week; the first of January 1970 was a Thursday. -/
def weekdays : List String := ["Thu", "Fri", "Sat", "Sun", "Mon", "Tue", "Wed"]

/-- The name of the day of the week. -/
def weekday (days : Int) : String := weekdays.getD (days % 7).toNat ""

/-- The names of the months. -/
def months : List String :=
  ["Jan", "Feb", "Mar", "Apr", "May", "Jun", "Jul", "Aug", "Sep", "Oct", "Nov", "Dec"]

/-- A number with at least the given number of digits. -/
def padded (width n : Nat) : String :=
  let text := toString n
  String.ofList (List.replicate (width - text.length) '0') ++ text

/-- A year: four digits, with a sign before the year 0 and after the year 9999. -/
def yearText (year : Int) : String :=
  if year < 0 then "-" ++ padded 4 year.natAbs
  else if 9999 < year then "+" ++ padded 4 year.toNat
  else padded 4 year.toNat

/-- An offset in seconds: its sign, hours and minutes. -/
def offsetText (offset : Int) : String :=
  let minutes := offset.natAbs / 60
  (if offset < 0 then "-" else "+") ++ padded 2 (minutes / 60) ++ padded 2 (minutes % 60)

/-- The seconds of a day. -/
def secondsPerDay : Int := 86400

/-- The years that dates are written for, by universal time. -/
def yearRange : Int × Int := (-262143, 262142)

/-- Whether an instant is in the range that dates are written for. -/
def inRange (seconds : Int) : Bool :=
  let year := (Date.ofDays (seconds / secondsPerDay)).year
  yearRange.1 ≤ year && year ≤ yearRange.2

/-- The offset that is used for a given one: itself if it is shorter than a day, else none. -/
def effectiveOffset (offset : Int) : Int :=
  if -secondsPerDay < offset ∧ offset < secondsPerDay then offset else 0

/-- The instant as date and time of day at an offset in seconds, or as the plain number of seconds
where its date is out of range. -/
def text (seconds offset : Int) : String :=
  if inRange seconds then
    let offset := effectiveOffset offset
    let localTime := seconds + offset
    let days := localTime / secondsPerDay
    let second := (localTime % secondsPerDay).toNat
    let date := Date.ofDays days
    let month := months.getD (date.month - 1) ""
    let time := padded 2 (second / 3600) ++ ":" ++ padded 2 (second / 60 % 60) ++ ":" ++
      padded 2 (second % 60)
    " ".intercalate [weekday days, month, toString date.day, time, yearText date.year,
      offsetText offset]
  else toString seconds

end CommitReports.Calendar
