import Mathlib.Data.Fintype.Basic
import GuestBridge.Instant

/-!
# Days of the calendar

The years divide the days among them, and so do the months of a year: a day has one date, and a
date one day. The first days of the months are counted up from the first of January 1970, month by
month, with the lengths that the months have.

* `Calendar.yearOf_eq_iff`: **the year of a day.**
* `Calendar.monthStart_succ`, `Calendar.monthStart_succ_year`, `Calendar.monthStart_epoch`: what
  fixes the first day of each month.
* `Calendar.dateOf_valid`, `Calendar.dayNumber_dateOf`, `Calendar.dateOf_dayNumber`: **days and
  dates correspond one to one.**
* `Calendar.nthSunday_bounds`: the `k`-th Sunday of a month lies in its `k`-th week.
-/

namespace GuestBridge.Calendar

/-! ## Years -/

/-- A year begins within two days of where years of the mean length would put it. -/
theorem daysBeforeYear_bounds (y : ℤ) :
    146097 * (y - 1) - 699 ≤ 400 * daysBeforeYear y ∧
      400 * daysBeforeYear y ≤ 146097 * (y - 1) + 396 := by
  unfold daysBeforeYear
  omega

/-- The number of days of a year. -/
def yearLength (leap : Bool) : ℕ := if leap then 366 else 365

theorem yearLength_pos (leap : Bool) : 0 < yearLength leap := by
  cases leap <;> decide

theorem daysBeforeYear_add_yearLength (y : ℤ) :
    daysBeforeYear (y + 1) = daysBeforeYear y + yearLength (isLeap y) := by
  rw [daysBeforeYear_succ, yearLength]
  split <;> rfl

theorem daysBeforeYear_lt_succ (y : ℤ) : daysBeforeYear y < daysBeforeYear (y + 1) := by
  have hpos := yearLength_pos (isLeap y)
  rw [daysBeforeYear_add_yearLength]
  omega

theorem daysBeforeYear_lt_iff {y z : ℤ} : daysBeforeYear y < daysBeforeYear z ↔ y < z :=
  (strictMono_int_of_lt_succ daysBeforeYear_lt_succ).lt_iff_lt

theorem daysBeforeYear_le_iff {y z : ℤ} : daysBeforeYear y ≤ daysBeforeYear z ↔ y ≤ z :=
  le_iff_le_iff_lt_iff_lt.2 daysBeforeYear_lt_iff

/-- The guess is at most one year off. -/
theorem yearOf_spec (n : ℤ) :
    daysBeforeYear (yearOf n) ≤ n ∧ n < daysBeforeYear (yearOf n + 1) := by
  obtain ⟨g, hg⟩ : ∃ g, g = 400 * n / 146097 + 1 := ⟨_, rfl⟩
  have before := (daysBeforeYear_bounds (g - 1)).2
  have after := (daysBeforeYear_bounds (g + 1 + 1)).1
  unfold yearOf
  rw [← hg]
  dsimp only
  split_ifs with hlow hhigh
  · rw [Int.sub_add_cancel]
    omega
  · omega
  · omega

/-- **The year of a day.** -/
theorem yearOf_eq_iff {n y : ℤ} :
    yearOf n = y ↔ daysBeforeYear y ≤ n ∧ n < daysBeforeYear (y + 1) := by
  refine ⟨fun h => h ▸ yearOf_spec n, fun ⟨hlow, hhigh⟩ => ?_⟩
  obtain ⟨hlow', hhigh'⟩ := yearOf_spec n
  have h₁ := daysBeforeYear_lt_iff.1 (hlow'.trans_lt hhigh)
  have h₂ := daysBeforeYear_lt_iff.1 (hlow.trans_lt hhigh')
  omega

/-! ## Months -/

/-- The number of days of a year before a month. -/
def daysBeforeMonth (leap : Bool) (month : ℕ) : ℕ := (monthStarts leap)[month]?.getD 0

/-- The number of days of a month. -/
def monthLength (leap : Bool) (month : ℕ) : ℕ :=
  if month = 1 then (if leap then 29 else 28)
  else if month = 3 ∨ month = 5 ∨ month = 8 ∨ month = 10 then 30
  else 31

/-- The month of a day of the year. -/
def monthOf (leap : Bool) (dayOfYear : ℕ) : ℕ :=
  ((monthStarts leap).filter (· ≤ dayOfYear)).length - 1

section Months

variable {leap : Bool} {month i k : ℕ}

theorem daysBeforeMonth_succ (h : month < 11) :
    daysBeforeMonth leap (month + 1) = daysBeforeMonth leap month + monthLength leap month := by
  have table : ∀ (leap : Bool) (month : Fin 11),
      daysBeforeMonth leap (month + 1) = daysBeforeMonth leap month + monthLength leap month := by
    decide
  exact table leap ⟨month, h⟩

/-- December ends with the year. -/
theorem daysBeforeMonth_december : daysBeforeMonth leap 11 + 31 = yearLength leap := by
  cases leap <;> rfl

theorem monthLength_le : monthLength leap month ≤ 31 := by
  unfold monthLength
  split_ifs <;> omega

/-- The months divide the days of the year among them. -/
theorem monthOf_spec (h : k < yearLength leap) :
    monthOf leap k < 12 ∧ daysBeforeMonth leap (monthOf leap k) ≤ k ∧
      k < daysBeforeMonth leap (monthOf leap k) + monthLength leap (monthOf leap k) := by
  have table : ∀ (leap : Bool) (k : Fin 366), k.val < yearLength leap →
      monthOf leap k < 12 ∧ daysBeforeMonth leap (monthOf leap k) ≤ k ∧
        k < daysBeforeMonth leap (monthOf leap k) + monthLength leap (monthOf leap k) := by
    decide +kernel
  have hle : yearLength leap ≤ 366 := by cases leap <;> decide
  exact table leap ⟨k, h.trans_le hle⟩ h

theorem monthOf_add (h : month < 12) (hi : i < monthLength leap month) :
    monthOf leap (daysBeforeMonth leap month + i) = month := by
  have table : ∀ (leap : Bool) (month : Fin 12) (i : Fin 31), i.val < monthLength leap month →
      monthOf leap (daysBeforeMonth leap month + i) = month := by
    decide +kernel
  exact table leap ⟨month, h⟩ ⟨i, hi.trans_le monthLength_le⟩ hi

/-- A month lies in its year. -/
theorem daysBeforeMonth_add_lt (h : month < 12) (hi : i < monthLength leap month) :
    daysBeforeMonth leap month + i < yearLength leap := by
  have table : ∀ (leap : Bool) (month : Fin 12),
      daysBeforeMonth leap month + monthLength leap month ≤ yearLength leap := by
    decide
  exact (Nat.add_lt_add_left hi _).trans_le (table leap ⟨month, h⟩)

end Months

/-! ## First days of months -/

section MonthStart

variable {year : ℤ} {month : ℕ}

theorem monthStart_eq (year : ℤ) (month : ℕ) :
    monthStart year month = daysBeforeYear year + daysBeforeMonth (isLeap year) month - epoch :=
  rfl

/-- A month begins where the month before it ends. -/
theorem monthStart_succ (h : month < 11) :
    monthStart year (month + 1) = monthStart year month + monthLength (isLeap year) month := by
  rw [monthStart_eq, monthStart_eq, daysBeforeMonth_succ h]
  push_cast
  omega

/-- A year begins where the last month of the year before it ends. -/
theorem monthStart_succ_year : monthStart (year + 1) 0 = monthStart year 11 + 31 := by
  have hzero : ∀ leap, daysBeforeMonth leap 0 = 0 := by decide
  have hlast : daysBeforeMonth (isLeap year) 11 + 31 = yearLength (isLeap year) :=
    daysBeforeMonth_december
  rw [monthStart_eq, monthStart_eq, daysBeforeYear_add_yearLength, hzero]
  omega

/-- Days are counted from the first of January 1970. -/
theorem monthStart_epoch : monthStart 1970 0 = 0 := by decide

end MonthStart

/-! ## Dates -/

/-- A month that is in the year, and a day that is in the month. -/
structure Date.Valid (d : Date) : Prop where
  month_lt : d.month < 12
  day_pos : 1 ≤ d.day
  day_le : d.day ≤ monthLength (isLeap d.year) d.month

section Dates

variable {n : ℤ} {d : Date}

/-- The day of the year of a date. -/
def Date.dayOfYear (d : Date) : ℕ := daysBeforeMonth (isLeap d.year) d.month + (d.day - 1)

theorem Date.Valid.dayNumber_eq (hd : d.Valid) :
    dayNumber d + epoch = daysBeforeYear d.year + d.dayOfYear := by
  have hpos := hd.day_pos
  rw [dayNumber, monthStart_eq, Date.dayOfYear]
  omega

theorem Date.Valid.dayOfYear_lt (hd : d.Valid) : d.dayOfYear < yearLength (isLeap d.year) := by
  have hpos := hd.day_pos
  have hle := hd.day_le
  exact daysBeforeMonth_add_lt hd.month_lt (by omega)

/-- The day of the year of a day, and its month. -/
theorem exists_dateOf (n : ℤ) :
    ∃ k : ℕ, n + epoch = daysBeforeYear (dateOf n).year + k ∧
      k < yearLength (isLeap (dateOf n).year) ∧
      (dateOf n).month = monthOf (isLeap (dateOf n).year) k ∧
      (dateOf n).day = k - daysBeforeMonth (isLeap (dateOf n).year) (dateOf n).month + 1 := by
  obtain ⟨hlow, hhigh⟩ := yearOf_spec (n + epoch)
  refine ⟨(n + epoch - daysBeforeYear (yearOf (n + epoch))).toNat, ?_, ?_, rfl, rfl⟩
  · change n + epoch = daysBeforeYear (yearOf (n + epoch)) + _
    omega
  · change _ < yearLength (isLeap (yearOf (n + epoch)))
    rw [daysBeforeYear_add_yearLength] at hhigh
    omega

/-- **Every day has a date.** -/
theorem dateOf_valid (n : ℤ) : (dateOf n).Valid := by
  obtain ⟨k, -, hk, hmonth, hday⟩ := exists_dateOf n
  obtain ⟨hlt, hlow, hhigh⟩ := monthOf_spec hk
  rw [← hmonth] at hlt hlow hhigh
  exact ⟨hlt, by omega, by omega⟩

/-- **A day is the day of its date.** -/
theorem dayNumber_dateOf (n : ℤ) : dayNumber (dateOf n) = n := by
  obtain ⟨k, hn, hk, hmonth, hday⟩ := exists_dateOf n
  obtain ⟨-, hlow, -⟩ := monthOf_spec hk
  rw [← hmonth] at hlow
  have heq := (dateOf_valid n).dayNumber_eq
  have hdayOfYear : (dateOf n).dayOfYear = k := by
    rw [Date.dayOfYear]
    omega
  rw [hdayOfYear] at heq
  omega

/-- The year of a day. -/
theorem year_dateOf_eq_iff {y : ℤ} :
    (dateOf n).year = y ↔ monthStart y 0 ≤ n ∧ n < monthStart (y + 1) 0 := by
  have hzero : ∀ leap, daysBeforeMonth leap 0 = 0 := by decide
  refine (yearOf_eq_iff (n := n + epoch)).trans ?_
  rw [monthStart_eq, monthStart_eq, hzero, hzero]
  omega

/-- **A date is the date of its day.** -/
theorem dateOf_dayNumber (hd : d.Valid) : dateOf (dayNumber d) = d := by
  have hyear : (dateOf (dayNumber d)).year = d.year := by
    have hlt := hd.dayOfYear_lt
    refine yearOf_eq_iff.2 ?_
    rw [hd.dayNumber_eq, daysBeforeYear_add_yearLength]
    omega
  obtain ⟨k, hn, -, hmonth, hday⟩ := exists_dateOf (dayNumber d)
  have hk : k = d.dayOfYear := by
    rw [hyear, hd.dayNumber_eq] at hn
    omega
  have hpos := hd.day_pos
  have hle := hd.day_le
  have hmonth' : (dateOf (dayNumber d)).month = d.month := by
    rw [hmonth, hyear, hk]
    exact monthOf_add hd.month_lt (by omega)
  have hday' : (dateOf (dayNumber d)).day = d.day := by
    rw [hday, hyear, hmonth', hk, Date.dayOfYear]
    omega
  calc dateOf (dayNumber d)
      = ⟨(dateOf (dayNumber d)).year, (dateOf (dayNumber d)).month, (dateOf (dayNumber d)).day⟩ :=
        rfl
    _ = d := by rw [hyear, hmonth', hday']

end Dates

/-! ## Sundays -/

section Sundays

variable (year : ℤ) (month k : ℕ)

/-- The `k`-th Sunday is in the `k`-th week of the month. -/
theorem nthSunday_bounds :
    monthStart year month + 7 * (k - 1) ≤ nthSunday year month k ∧
      nthSunday year month k < monthStart year month + 7 * k := by
  dsimp only [nthSunday, weekday]
  omega

end Sundays

end GuestBridge.Calendar
