/-!
# The calendar

Days are numbered from the first of January 1970. The calendar is the Gregorian
one, in force for all years; years before the first count down through zero.

* `daysBeforeYear_succ`: a year has 365 days, a leap year one more.
-/

namespace GuestBridge.Calendar

/-- Whether a year has a leap day. -/
def isLeap (year : Int) : Bool := year % 4 == 0 && (year % 100 != 0 || year % 400 == 0)

/-- The number of days from the first day of year one to the first day of `year`. -/
def daysBeforeYear (year : Int) : Int :=
  365 * (year - 1) + (year - 1) / 4 - (year - 1) / 100 + (year - 1) / 400

/-- The number of days of a year before each month. -/
def monthStarts (leap : Bool) : List Nat :=
  if leap then [0, 31, 60, 91, 121, 152, 182, 213, 244, 274, 305, 335]
  else [0, 31, 59, 90, 120, 151, 181, 212, 243, 273, 304, 334]

/-- The number of days from the first day of year one to the first of January 1970. -/
def epoch : Int := 719162

/-- A day of the calendar. The month counts from zero, the day from one. -/
structure Date where
  year : Int
  month : Nat
  day : Nat
  deriving DecidableEq, Repr

/-- The number of the first day of a month. -/
def monthStart (year : Int) (month : Nat) : Int :=
  daysBeforeYear year + ((monthStarts (isLeap year))[month]?.getD 0 : Nat) - epoch

/-- The number of a day. -/
def dayNumber (d : Date) : Int := monthStart d.year d.month + d.day - 1

/-- The year that holds the day `n` days after the first day of year one: the mean length of a
year leads to it or to a neighbour. -/
def yearOf (n : Int) : Int :=
  let guess := 400 * n / 146097 + 1
  if n < daysBeforeYear guess then guess - 1
  else if daysBeforeYear (guess + 1) ≤ n then guess + 1
  else guess

/-- The day of a number. -/
def dateOf (number : Int) : Date :=
  let n := number + epoch
  let year := yearOf n
  let dayOfYear := (n - daysBeforeYear year).toNat
  let starts := monthStarts (isLeap year)
  let month := (starts.filter (· ≤ dayOfYear)).length - 1
  { year, month, day := dayOfYear - starts[month]?.getD 0 + 1 }

/-- The day of the week, counted from Sunday. -/
def weekday (number : Int) : Nat := ((number + 4) % 7).toNat

/-- The number of the `k`-th Sunday of a month, counted from one. -/
def nthSunday (year : Int) (month k : Nat) : Int :=
  let first := monthStart year month
  first + (7 - weekday first) % 7 + 7 * (k - 1)

/-- **A year has 365 days, a leap year one more.** -/
theorem daysBeforeYear_succ (year : Int) :
    daysBeforeYear (year + 1) = daysBeforeYear year + (if isLeap year then 366 else 365) := by
  simp only [daysBeforeYear, isLeap, Bool.and_eq_true, Bool.or_eq_true, beq_iff_eq, bne_iff_ne]
  split <;> omega

end GuestBridge.Calendar
