import Dvws.Bytes

/-!
# Calendar dates

`gmtime_r` and the `strftime` formats the server uses, on seconds since the epoch, in the
proleptic Gregorian calendar. The day number is counted from 1 March of year 0, so that a leap
day is the last day of its year.
-/

namespace Dvws

/-- `std::tm`, with the month from 1 to 12 and the year counted from 0. -/
structure Tm where
  year : Int
  month : Nat
  day : Nat
  hour : Nat
  minute : Nat
  second : Nat
  weekday : Nat
  deriving DecidableEq, Repr

/-- `gmtime_r`. -/
def gmtime (t : Int) : Tm :=
  let days := t / 86400
  let seconds := (t % 86400).toNat
  let shifted := days + 719468
  let era := shifted / 146097
  let dayOfEra := (shifted % 146097).toNat
  let yearOfEra :=
    (dayOfEra - dayOfEra / 1460 + dayOfEra / 36524 - dayOfEra / 146096) / 365
  let dayOfYear := dayOfEra - (365 * yearOfEra + yearOfEra / 4 - yearOfEra / 100)
  let shiftedMonth := (5 * dayOfYear + 2) / 153
  let month := if shiftedMonth < 10 then shiftedMonth + 3 else shiftedMonth - 9
  { year := yearOfEra + era * 400 + (if month ≤ 2 then 1 else 0)
    month := month
    day := dayOfYear - (153 * shiftedMonth + 2) / 5 + 1
    hour := seconds / 3600
    minute := seconds % 3600 / 60
    second := seconds % 60
    weekday := ((days + 4) % 7).toNat }

/-- Two decimal digits. -/
def twoDigits (n : Nat) : Bytes := if n < 10 then 48 :: toDecimal n else toDecimal n

/-- `%Y`. -/
def yearText (year : Int) : Bytes := lit (toString year)

/-- `%a` in the C locale. -/
def weekdayName (weekday : Nat) : Bytes :=
  [lit "Sun", lit "Mon", lit "Tue", lit "Wed", lit "Thu", lit "Fri", lit "Sat"].getD weekday []

/-- `%b` in the C locale. -/
def monthName (month : Nat) : Bytes :=
  [lit "Jan", lit "Feb", lit "Mar", lit "Apr", lit "May", lit "Jun", lit "Jul", lit "Aug",
    lit "Sep", lit "Oct", lit "Nov", lit "Dec"].getD (month - 1) []

/-- `%H:%M`. -/
def hourMinute (tm : Tm) : Bytes := twoDigits tm.hour ++ lit ":" ++ twoDigits tm.minute

/-- `%H:%M:%S`. -/
def clockTime (tm : Tm) : Bytes := hourMinute tm ++ lit ":" ++ twoDigits tm.second

/-- `%Y-%m-%d`. -/
def isoDate (tm : Tm) : Bytes :=
  yearText tm.year ++ lit "-" ++ twoDigits tm.month ++ lit "-" ++ twoDigits tm.day

/-- `%z`, from the offset in seconds. -/
def zoneText (offset : Int) : Bytes :=
  let minutes := offset.natAbs / 60
  (if offset < 0 then lit "-" else lit "+") ++ twoDigits (minutes / 60) ++ twoDigits (minutes % 60)

/-- `http_date`: the date format of HTTP headers. -/
def httpDate (t : Int) : Bytes :=
  let tm := gmtime t
  weekdayName tm.weekday ++ lit ", " ++ twoDigits tm.day ++ lit " " ++ monthName tm.month ++
    lit " " ++ yearText tm.year ++ lit " " ++ clockTime tm ++ lit " GMT"

example : httpDate 784111777 = lit "Sun, 06 Nov 1994 08:49:37 GMT" := by decide

end Dvws
