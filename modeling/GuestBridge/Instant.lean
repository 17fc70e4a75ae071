import GuestBridge.Calendar
import GuestBridge.Number.Binary

/-!
# Instants and their fields

An instant is a number of milliseconds since the first of January 1970, in the
range that the calendar covers. Its fields are read on the clock of one of two
zones; fields are put together with roll-over, in floating-point arithmetic, so
that any numbers may be given.

* `Instant.ofWall_eq`: the clock is four or five hours behind.
-/

namespace GuestBridge

/-- The zones of the two clocks. -/
inductive Zone where
  /-- Five hours behind, and four from the second Sunday of March to the first of November. -/
  | eastern
  | utc
  deriving DecidableEq, Repr

namespace Instant

/-- Milliseconds of an hour. -/
def hour : Int := 3600000

/-- Milliseconds of a day. -/
def day : Int := 86400000

/-- The first millisecond of the calendar. -/
def first : Int := -8334601228800000

/-- The last millisecond of the calendar. -/
def last : Int := 8210266876799999

/-- Numbers of larger magnitude are no times. -/
def limit : Nat := 8640000000000000

/-- The first year of the calendar. -/
def firstYear : Int := -262143

/-- The last year of the calendar. -/
def lastYear : Int := 262142

/-- The whole milliseconds of a number that is a time. -/
def clip? (time : Double) : Option Int := time.truncate?.filter fun t => t.natAbs ≤ limit

/-- A number that is no time becomes not-a-number; others lose their fraction. -/
def clip (time : Double) : Double := (clip? time).elim .nan .ofInt

/-- The instant of a number, if the calendar covers it. -/
def ofDouble? (time : Double) : Option Int :=
  (clip? time).filter fun t => first ≤ t ∧ t ≤ last

/-- Whether a number can be the present time: whole milliseconds, from September 2020 on. -/
def isCredible (time : Double) : Bool :=
  time.toRat?.any fun q => q.den == 1 && 1600000000000 ≤ q.num

/-- The number of the day of an instant. -/
def dayOf (t : Int) : Int := t / day

/-- The year of an instant. -/
def yearOf (t : Int) : Int := (Calendar.dateOf (dayOf t)).year

/-- Whether an instant falls in daylight time: from two o'clock standard time to two o'clock
daylight time. -/
def isDaylight (t : Int) : Bool :=
  let year := yearOf t
  Calendar.nthSunday year 2 2 * day + 7 * hour ≤ t &&
    t < Calendar.nthSunday year 10 1 * day + 6 * hour

/-- How far the eastern clock is behind at an instant. -/
def behind (t : Int) : Int := if isDaylight t then 4 * hour else 5 * hour

/-- What the clock of a zone shows at an instant. -/
def toWall (zone : Zone) (t : Int) : Int :=
  match zone with
  | .utc => t
  | .eastern => t - behind t

/-- Whether a reading of the eastern clock is taken as daylight time: the skipped and the repeated
hour are not. -/
def isDaylightWall (w : Int) : Bool :=
  let year := yearOf w
  Calendar.nthSunday year 2 2 * day + 3 * hour ≤ w &&
    w < Calendar.nthSunday year 10 1 * day + 1 * hour

/-- The instant at which the eastern clock shows `w`. -/
def ofWall (w : Int) : Int := if isDaylightWall w then w + 4 * hour else w + 5 * hour

end Instant

/-- The fields of a date, as numbers that need not be in their ranges. Months count from zero. -/
structure DateFields where
  year : Double
  month : Double
  day : Double
  hours : Double
  minutes : Double
  seconds : Double
  millis : Double
  deriving DecidableEq, Repr

/-- The fields that can be read and replaced. -/
inductive DateField where
  | fullYear
  | month
  | date
  | hours
  | minutes
  | seconds
  deriving DecidableEq, Repr

namespace DateField

/-- The word for a field. -/
def name : DateField → String
  | fullYear => "FullYear"
  | month => "Month"
  | date => "Date"
  | hours => "Hours"
  | minutes => "Minutes"
  | seconds => "Seconds"

/-- All fields, the largest unit first. -/
def all : List DateField := [fullYear, month, date, hours, minutes, seconds]

/-- Reads a field. -/
def get (f : DateFields) : DateField → Double
  | fullYear => f.year
  | month => f.month
  | date => f.day
  | hours => f.hours
  | minutes => f.minutes
  | seconds => f.seconds

/-- Replaces a field. -/
def set (f : DateFields) (v : Double) : DateField → DateFields
  | fullYear => { f with year := v }
  | month => { f with month := v }
  | date => { f with day := v }
  | hours => { f with hours := v }
  | minutes => { f with minutes := v }
  | seconds => { f with seconds := v }

end DateField

namespace DateFields

/-- The fields that a clock shows. -/
def ofWall (w : Int) : DateFields :=
  let date := Calendar.dateOf (Instant.dayOf w)
  let inDay := w % Instant.day
  { year := .ofInt date.year
    month := .ofNat date.month
    day := .ofNat date.day
    hours := .ofInt (inDay / 3600000)
    minutes := .ofInt (inDay / 60000 % 60)
    seconds := .ofInt (inDay / 1000 % 60)
    millis := .ofInt (inDay % 1000) }

/-- The fields of a time in a zone. -/
def ofTime? (time : Double) (zone : Zone) : Option DateFields :=
  (Instant.ofDouble? time).map fun t => ofWall (Instant.toWall zone t)

/-- The number of a day, given by year, month and day of the month; months roll over into years,
and days into months. -/
def makeDay (year month day : Double) : Double :=
  if !(year.isFinite && month.isFinite && day.isFinite) then .nan
  else
    -- The years are added up in floating point before they are held against the calendar.
    let wholeMonth := month.trunc
    let rolledYear := year.trunc + (wholeMonth / 12).floor
    match rolledYear.truncate?, wholeMonth.truncate? with
    | some y, some m =>
      if Instant.firstYear ≤ y ∧ y ≤ Instant.lastYear then
        .ofInt (Calendar.monthStart y (m % 12).toNat) + day.trunc - 1
      else .nan
    | _, _ => .nan

/-- Milliseconds of hours, minutes, seconds and milliseconds. -/
def makeTime (hours minutes seconds millis : Double) : Double :=
  if !(hours.isFinite && minutes.isFinite && seconds.isFinite && millis.isFinite) then .nan
  else
    hours.trunc * 3600000 + minutes.trunc * 60000 + seconds.trunc * 1000 + millis.trunc

/-- The time at which the clock of a zone shows the fields. -/
def compose (f : DateFields) (zone : Zone) : Double :=
  let wall := makeDay f.year f.month f.day * 86400000 +
    makeTime f.hours f.minutes f.seconds f.millis
  if !wall.isFinite then .nan
  else
    match zone with
    | .utc => Instant.clip wall
    | .eastern =>
      (Instant.ofDouble? wall).elim .nan fun w => Instant.clip (.ofInt (Instant.ofWall w))

/-- Replaces one field of a time. -/
def replace (time : Double) (zone : Zone) (field : DateField) (value : Double) : Double :=
  (ofTime? time zone).elim .nan fun f => (field.set f value).compose zone

end DateFields

namespace Instant

/-- The day of the week of a time, counted from Sunday. -/
def weekday (time : Double) (zone : Zone) : Double :=
  (ofDouble? time).elim .nan fun t => .ofNat (Calendar.weekday (dayOf (toWall zone t)))

/-- How many minutes the eastern clock is behind at a time. -/
def minutesBehind (time : Double) : Double :=
  (ofDouble? time).elim .nan fun t => .ofInt (behind t / 60000)

/-- A reading is taken as four or five hours behind. -/
theorem ofWall_eq (w : Int) : ofWall w = w + 4 * hour ∨ ofWall w = w + 5 * hour := by
  unfold ofWall
  split
  · exact .inl rfl
  · exact .inr rfl

end Instant

end GuestBridge
