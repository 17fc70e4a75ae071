import GuestBridge.Proofs.Days
import GuestBridge.Proofs.Exact

/-!
# Dates of Greenwich

Fields are put together in floating point, but the days and the milliseconds are exact, and only
their sum can be too large for fifty-three bits; then it is no time, and rounding leaves it none.
So what is composed is the whole number that the fields stand for, months rolled over into years
and days into months.

* `WholeFields.total`: **the time that fields stand for**, in whole numbers.
* `Instant.clip?_of_rounds`: a rounded sum is a time just if the exact one is.
* `DateFields.Truncates.compose_utc`: **composition is exact.**
* `WholeFields.Normal.ofWall_total`, `WholeFields.total_ofWall`: fields in their ranges and
  times correspond one to one.
* `DateFields.composition_exact`: composing and reading fields are inverse to each other.
-/

namespace GuestBridge

open Binary Calendar

/-! ## Fields in whole numbers -/

/-- Whole numbers for the fields of a date. -/
@[ext]
structure WholeFields where
  year : ℤ
  month : ℤ
  day : ℤ
  hours : ℤ
  minutes : ℤ
  seconds : ℤ
  millis : ℤ
  deriving DecidableEq, Repr

namespace WholeFields

/-- The year that the months lead to. -/
def rolledYear (n : WholeFields) : ℤ := n.year + n.month / 12

/-- The number of the first day of the month that the months lead to. -/
def firstDay (n : WholeFields) : ℤ := monthStart n.rolledYear (n.month % 12).toNat

/-- The milliseconds after midnight. -/
def inDay (n : WholeFields) : ℤ :=
  n.hours * 3600000 + n.minutes * 60000 + n.seconds * 1000 + n.millis

/-- **The time that fields stand for.** -/
def total (n : WholeFields) : ℤ := (n.firstDay + n.day - 1) * 86400000 + n.inDay

/-- The month is one of the calendar. -/
def InCalendar (n : WholeFields) : Prop :=
  Instant.firstYear ≤ n.rolledYear ∧ n.rolledYear ≤ Instant.lastYear

instance (n : WholeFields) : Decidable n.InCalendar := by
  unfold InCalendar
  infer_instance

/-- Years and months in the hundred thousands, and of the other units as many as make up
thirty thousand years. -/
structure Bounded (n : WholeFields) : Prop where
  year : n.year.natAbs ≤ 300000
  month : n.month.natAbs ≤ 3600000
  day : (n.day * 86400000).natAbs ≤ 10 ^ 15
  hours : (n.hours * 3600000).natAbs ≤ 10 ^ 15
  minutes : (n.minutes * 60000).natAbs ≤ 10 ^ 15
  seconds : (n.seconds * 1000).natAbs ≤ 10 ^ 15
  millis : n.millis.natAbs ≤ 10 ^ 15

theorem Bounded.natAbs_inDay_le {n : WholeFields} (h : n.Bounded) :
    n.inDay.natAbs ≤ 4 * 10 ^ 15 := by
  obtain ⟨-, -, -, hhours, hminutes, hseconds, hmillis⟩ := h
  unfold inDay
  omega

/-- Every field is in its range. -/
structure Normal (n : WholeFields) : Prop where
  month : 0 ≤ n.month ∧ n.month ≤ 11
  day : 1 ≤ n.day ∧ n.day ≤ monthLength (isLeap n.year) n.month.toNat
  hours : 0 ≤ n.hours ∧ n.hours ≤ 23
  minutes : 0 ≤ n.minutes ∧ n.minutes ≤ 59
  seconds : 0 ≤ n.seconds ∧ n.seconds ≤ 59
  millis : 0 ≤ n.millis ∧ n.millis ≤ 999

/-- The fields that a clock shows. -/
def ofWall (w : ℤ) : WholeFields :=
  let date := dateOf (Instant.dayOf w)
  let inDay := w % Instant.day
  { year := date.year
    month := date.month
    day := date.day
    hours := inDay / 3600000
    minutes := inDay / 60000 % 60
    seconds := inDay / 1000 % 60
    millis := inDay % 1000 }

/-- The fields as numbers of the host. -/
def toFields (n : WholeFields) : DateFields where
  year := .ofInt n.year
  month := .ofInt n.month
  day := .ofInt n.day
  hours := .ofInt n.hours
  minutes := .ofInt n.minutes
  seconds := .ofInt n.seconds
  millis := .ofInt n.millis

variable {n : WholeFields}

/-- The date of fields in their ranges. -/
def date (n : WholeFields) : Date := ⟨n.year, n.month.toNat, n.day.toNat⟩

theorem Normal.date_valid (h : n.Normal) : n.date.Valid := by
  obtain ⟨hmonth, hmonth'⟩ := h.month
  obtain ⟨hday, hday'⟩ := h.day
  exact ⟨by simp only [date]; omega, by simp only [date]; omega, by simp only [date]; omega⟩

theorem Normal.rolledYear_eq (h : n.Normal) : n.rolledYear = n.year := by
  have hmonth := h.month
  unfold rolledYear
  omega

/-- Without roll-over, the days are those of the calendar. -/
theorem Normal.dayNumber_date (h : n.Normal) : dayNumber n.date = n.firstDay + n.day - 1 := by
  have hday := h.day
  have hmod : n.month % 12 = n.month := by
    have hmonth := h.month
    omega
  simp only [dayNumber, date, firstDay, h.rolledYear_eq, hmod]
  omega

theorem Normal.inDay_bounds (h : n.Normal) : 0 ≤ n.inDay ∧ n.inDay < 86400000 := by
  obtain ⟨-, -, hhours, hminutes, hseconds, hmillis⟩ := h
  unfold inDay
  omega

/-- The day of the time that normal fields stand for. -/
theorem Normal.dayOf_total (h : n.Normal) : Instant.dayOf n.total = dayNumber n.date := by
  have hbounds := h.inDay_bounds
  rw [h.dayNumber_date, Instant.dayOf, Instant.day, total]
  omega

theorem Normal.total_mod (h : n.Normal) : n.total % Instant.day = n.inDay := by
  have hbounds := h.inDay_bounds
  rw [Instant.day, total]
  omega

/-- **Normal fields are those of the time that they stand for.** -/
theorem Normal.ofWall_total (h : n.Normal) : ofWall n.total = n := by
  have hdate : dateOf (Instant.dayOf n.total) = n.date := by
    rw [h.dayOf_total, dateOf_dayNumber h.date_valid]
  have hmod := h.total_mod
  unfold inDay at hmod
  obtain ⟨hmonth, hday, hhours, hminutes, hseconds, hmillis⟩ := h
  ext <;> simp only [ofWall, hdate, hmod, date] <;> omega

/-- The fields of a time are in their ranges. -/
theorem normal_ofWall (w : ℤ) : (ofWall w).Normal := by
  obtain ⟨hmonth, hday, hday'⟩ := dateOf_valid (Instant.dayOf w)
  refine ⟨?_, ?_, ?_, ?_, ?_, ?_⟩ <;> simp only [ofWall, Instant.day, Int.toNat_natCast] <;> omega

/-- **A time is what its fields stand for.** -/
theorem total_ofWall (w : ℤ) : (ofWall w).total = w := by
  have hnormal := normal_ofWall w
  have hdate : (ofWall w).date = dateOf (Instant.dayOf w) := by
    simp only [date, ofWall, Int.toNat_natCast]
  have hday := hnormal.dayNumber_date
  rw [hdate, dayNumber_dateOf] at hday
  have hinDay : (ofWall w).inDay = w % 86400000 := by
    simp only [inDay, ofWall, Instant.day]
    omega
  rw [total, ← hday, hinDay, Instant.dayOf, Instant.day]
  omega

end WholeFields

/-! ## Times -/

namespace Calendar

variable {y : ℤ} {m : ℕ}

theorem daysBeforeMonth_le (leap : Bool) (m : ℕ) : daysBeforeMonth leap m ≤ 335 := by
  have table : ∀ (leap : Bool) (m : Fin 12), daysBeforeMonth leap m ≤ 335 := by decide
  by_cases hm : m < 12
  · exact table leap ⟨m, hm⟩
  · have hlength : (monthStarts leap).length = 12 := by cases leap <;> rfl
    rw [daysBeforeMonth, List.getElem?_eq_none (by omega)]
    exact Nat.zero_le _

/-- The days of the calendar are fewer than a hundred million either way. -/
theorem natAbs_monthStart_le (hlow : Instant.firstYear ≤ y) (hhigh : y ≤ Instant.lastYear) :
    (monthStart y m).natAbs ≤ 96500000 := by
  have hyear := daysBeforeYear_bounds y
  have hmonth := daysBeforeMonth_le (isLeap y) m
  rw [monthStart_eq, epoch]
  unfold Instant.firstYear at hlow
  unfold Instant.lastYear at hhigh
  omega

end Calendar

namespace Instant

variable {x : Double} {r : ℚ} {t : ℤ}

/-- Cutting off the fraction does not lead past a whole number. -/
theorem le_natAbs_tdiv {k : ℕ} (h : (k : ℚ) ≤ |r|) : k ≤ (r.num.tdiv r.den).natAbs := by
  have hden : (0 : ℚ) < r.den := by exact_mod_cast r.den_pos
  rw [← Binary.natAbs_num_div_den, le_div_iff₀ hden] at h
  rw [Int.natAbs_tdiv, Int.natAbs_natCast]
  exact (Nat.le_div_iff_mul_le r.den_pos).2 (by exact_mod_cast h)

/-- **A rounded sum is a time just if the exact one is**, and then it is exact. -/
theorem clip?_of_rounds (hx : x.toRat? = some r) (hr : Double.Rounds t r) :
    clip? x = if t.natAbs ≤ limit then some t else none := by
  have hgrid : ∀ a : ℤ, a.natAbs ≤ limit + 1 → Double.OnGrid a := by
    intro a ha
    refine Double.onGrid_int (lt_of_le_of_lt ha ?_)
    decide
  unfold clip?
  split_ifs with ht
  · have hint : x.IsInt t := by rw [IsInt, hx, hr.eq (hgrid t (by omega))]
    rw [hint.truncate?, Option.filter_some, if_pos (by simpa using ht)]
  · have hlarge : ((limit + 1 : ℕ) : ℚ) ≤ |r| := by
      -- a grid point just past the last time lies between
      rcases le_total 0 t with hsign | hsign
      · have hle : ((limit + 1 : ℕ) : ℤ) ≤ t := by omega
        have := hr.le _ (hgrid (limit + 1 : ℕ) (by omega)) (by exact_mod_cast hle)
        exact le_trans (by exact_mod_cast this) (le_abs_self r)
      · have hle : t ≤ -((limit + 1 : ℕ) : ℤ) := by omega
        have := hr.ge _ (hgrid (-(limit + 1 : ℕ)) (by omega)) (by exact_mod_cast hle)
        exact le_trans (by push_cast at this ⊢; linarith) (neg_le_abs r)
    have hle := le_natAbs_tdiv hlarge
    rw [truncate?, hx, Option.map_some, Option.filter_some, if_neg]
    simpa using Nat.lt_of_succ_le hle

theorem clip?_of_isInt (hx : x.IsInt t) : clip? x = if t.natAbs ≤ limit then some t else none :=
  clip?_of_rounds hx ⟨fun _ _ h => h, fun _ _ h => h⟩

theorem ofDouble?_of_isInt (hx : x.IsInt t) (hlow : first ≤ t) (hhigh : t ≤ last) :
    ofDouble? x = some t := by
  have hlimit : t.natAbs ≤ limit := by
    unfold first at hlow
    unfold last at hhigh
    unfold limit
    omega
  rw [ofDouble?, clip?_of_isInt hx, if_pos hlimit, Option.filter_some, if_pos]
  simpa using And.intro hlow hhigh

end Instant

namespace Instant

/-- **The range of instants is the range of years.** -/
theorem yearOf_mem_iff {t : ℤ} :
    firstYear ≤ yearOf t ∧ yearOf t ≤ lastYear ↔ first ≤ t ∧ t ≤ last := by
  have hyear : (dateOf (dayOf t)).year = yearOf t := rfl
  obtain ⟨hlow, hhigh⟩ := year_dateOf_eq_iff.1 hyear
  have hzero : ∀ leap, daysBeforeMonth leap 0 = 0 := by decide
  have hfirst : (daysBeforeYear firstYear - epoch) * day = first := by decide
  have hlast : (daysBeforeYear (lastYear + 1) - epoch) * day = last + 1 := by decide
  rw [monthStart_eq, hzero] at hlow hhigh
  unfold dayOf at hlow hhigh
  unfold day at *
  -- the year is taken to its bounds through the days before it
  constructor
  · rintro ⟨h₁, h₂⟩
    have hmono₁ := daysBeforeYear_le_iff.2 h₁
    have hmono₂ := daysBeforeYear_le_iff.2 (add_le_add_left h₂ 1)
    omega
  · rintro ⟨h₁, h₂⟩
    have hlt₁ : firstYear < yearOf t + 1 := daysBeforeYear_lt_iff.1 (by omega)
    have hlt₂ : yearOf t < lastYear + 1 := daysBeforeYear_lt_iff.1 (by omega)
    omega

end Instant

namespace WholeFields

variable {n : WholeFields} {t : ℤ}

theorem Normal.yearOf_total (h : n.Normal) : Instant.yearOf n.total = n.year := by
  rw [Instant.yearOf, h.dayOf_total, dateOf_dayNumber h.date_valid]
  rfl

theorem Normal.inCalendar_iff (h : n.Normal) :
    n.InCalendar ↔ Instant.first ≤ n.total ∧ n.total ≤ Instant.last := by
  rw [← Instant.yearOf_mem_iff, h.yearOf_total, InCalendar, h.rolledYear_eq]

theorem Normal.bounded (h : n.Normal) (hc : n.InCalendar) : n.Bounded := by
  rw [InCalendar, h.rolledYear_eq] at hc
  obtain ⟨hfirst, hlast⟩ := hc
  unfold Instant.firstYear at hfirst
  unfold Instant.lastYear at hlast
  obtain ⟨hmonth, hday, hhours, hminutes, hseconds, hmillis⟩ := h
  have hlength : monthLength (isLeap n.year) n.month.toNat ≤ 31 := monthLength_le
  exact ⟨by omega, by omega, by omega, by omega, by omega, by omega, by omega⟩

end WholeFields

namespace DateFields

/-- The fields have those integer parts. -/
structure Truncates (f : DateFields) (n : WholeFields) : Prop where
  year : f.year.truncate? = some n.year
  month : f.month.truncate? = some n.month
  day : f.day.truncate? = some n.day
  hours : f.hours.truncate? = some n.hours
  minutes : f.minutes.truncate? = some n.minutes
  seconds : f.seconds.truncate? = some n.seconds
  millis : f.millis.truncate? = some n.millis

section Compose

variable {f : DateFields} {n : WholeFields}

/-- A product that is exact because it is small. -/
theorem isInt_mul_unit {x : Double} {a : ℤ} {u : ℕ} (hx : x.truncate? = some a)
    (ha : (a * u).natAbs ≤ 10 ^ 15) (hu : 0 < u) (hu' : u < 2 ^ 53) :
    (x.trunc * Binary.ofNat u).IsInt (a * u) := by
  have hle : a.natAbs ≤ (a * u).natAbs := by
    rw [Int.natAbs_mul, Int.natAbs_natCast]
    exact Nat.le_mul_of_pos_right _ hu
  exact (isInt_trunc hx (by omega)).mul (isInt_ofNat hu') (k := 0) (by rw [pow_zero, mul_one])
    (by omega) (Nat.zero_le _)

/-- The milliseconds after midnight are exact. -/
theorem Truncates.makeTime_isInt (hf : f.Truncates n) (hn : n.Bounded) :
    (makeTime f.hours f.minutes f.seconds f.millis).IsInt n.inDay := by
  have hhours := hn.hours
  have hminutes := hn.minutes
  have hseconds := hn.seconds
  have hmillis := hn.millis
  have hfinite : (f.hours.isFinite && f.minutes.isFinite && f.seconds.isFinite &&
      f.millis.isFinite) = true := by
    rw [isFinite_of_truncate? hf.hours, isFinite_of_truncate? hf.minutes,
      isFinite_of_truncate? hf.seconds, isFinite_of_truncate? hf.millis]
    rfl
  rw [makeTime, hfinite]
  refine IsInt.add (IsInt.add (IsInt.add ?_ ?_ ?_) ?_ ?_) ?_ ?_
  · exact isInt_mul_unit hf.hours hhours (by norm_num) (by norm_num)
  · exact isInt_mul_unit hf.minutes hminutes (by norm_num) (by norm_num)
  · omega
  · exact isInt_mul_unit hf.seconds hseconds (by norm_num) (by norm_num)
  · omega
  · exact isInt_trunc hf.millis (by omega)
  · omega

/-- The number of the day is exact, if the calendar covers the month. -/
theorem Truncates.makeDay_eq (hf : f.Truncates n) (hn : n.Bounded) :
    (n.InCalendar → (makeDay f.year f.month f.day).IsInt (n.firstDay + n.day - 1)) ∧
      (¬ n.InCalendar → makeDay f.year f.month f.day = .nan) := by
  have hyear := hn.year
  have hmonth := hn.month
  have hday := hn.day
  have hfinite : (f.year.isFinite && f.month.isFinite && f.day.isFinite) = true := by
    rw [isFinite_of_truncate? hf.year, isFinite_of_truncate? hf.month,
      isFinite_of_truncate? hf.day]
    rfl
  have hwhole := isInt_trunc hf.month (by omega)
  -- the months roll over into the year without an error of rounding
  have hrolled : (f.year.trunc + (f.month.trunc / 12).floor).IsInt n.rolledYear :=
    (isInt_trunc hf.year (by omega)).add (hwhole.floor_div_twelve (by omega)) (by omega)
  have hmake : makeDay f.year f.month f.day =
      if n.InCalendar then .ofInt n.firstDay + f.day.trunc - 1 else .nan := by
    unfold makeDay
    rw [hfinite]
    simp only [hrolled.truncate?, hwhole.truncate?]
    rfl
  constructor
  · intro hin
    have hfirst : n.firstDay.natAbs ≤ 96500000 := natAbs_monthStart_le hin.1 hin.2
    rw [hmake, if_pos hin]
    refine IsInt.sub (IsInt.add ?_ ?_ ?_) ?_ ?_
    · exact isInt_ofInt (by omega)
    · exact isInt_trunc hf.day (by omega)
    · omega
    · exact isInt_ofNat (k := 1) (by norm_num)
    · omega
  · intro hin
    rw [hmake, if_neg hin]

/-- What the clock shows, as it is computed. -/
def wallTime (f : DateFields) : Double :=
  makeDay f.year f.month f.day * 86400000 + makeTime f.hours f.minutes f.seconds f.millis

/-- Numbers that are not finite are no times, so they need no case of their own. -/
theorem compose_eq (f : DateFields) (zone : Zone) :
    f.compose zone =
      match zone with
      | .utc => Instant.clip f.wallTime
      | .eastern =>
        (Instant.ofDouble? f.wallTime).elim .nan fun w => Instant.clip (.ofInt (Instant.ofWall w)) := by
  rcases hfinite : f.wallTime.isFinite
  · have hclip : Instant.clip? f.wallTime = none := by
      cases hw : f.wallTime with
      | nan => rfl
      | infinity s => rfl
      | finite s c => rw [hw] at hfinite; cases hfinite
    have hnan : f.compose zone = .nan := if_pos (by rw [← wallTime, hfinite]; rfl)
    rw [hnan, Instant.clip, Instant.ofDouble?, hclip]
    cases zone <;> rfl
  · exact if_neg (by rw [← wallTime, hfinite]; simp)

/-- **What the clock shows is exact.** The fields stand for a whole number of milliseconds; where
the calendar covers the month and the number is a time, it is computed. -/
theorem Truncates.clip?_wallTime (hf : f.Truncates n) (hn : n.Bounded) :
    Instant.clip? f.wallTime =
      if n.InCalendar ∧ n.total.natAbs ≤ Instant.limit then some n.total else none := by
  obtain ⟨hin, hout⟩ := hf.makeDay_eq hn
  unfold wallTime
  by_cases hcal : n.InCalendar
  · have hbounds := hn.day
    have hfirst : n.firstDay.natAbs ≤ 96500000 := natAbs_monthStart_le hcal.1 hcal.2
    -- the days in milliseconds need more than fifty-three bits, but the last ten are zero
    have hdays : (makeDay f.year f.month f.day * 86400000).IsInt
        ((n.firstDay + n.day - 1) * 86400000) :=
      (hin hcal).mul (isInt_ofNat (k := 86400000) (by norm_num))
        (l := (n.firstDay + n.day - 1) * 84375) (k := 10) (by push_cast; ring) (by omega)
        (by norm_num)
    have htime := hf.makeTime_isInt hn
    have hsmall : |(n.total : ℚ)| ≤ 2 ^ 1000 := by
      have hle : n.total.natAbs ≤ 2 ^ 60 := by
        have hinDay := hn.natAbs_inDay_le
        unfold WholeFields.total
        omega
      rw [← Int.cast_abs, Int.abs_eq_natAbs]
      refine le_trans (b := 2 ^ 60) (by exact_mod_cast hle) ?_
      exact pow_le_pow_right₀ one_le_two (by norm_num)
    obtain ⟨r, hr, hrounds⟩ := Double.exists_toRat?_ofRat n.total
      ((makeDay f.year f.month f.day * 86400000).isNegative &&
        (makeTime f.hours f.minutes f.seconds f.millis).isNegative) hsmall
    rw [Instant.clip?_of_rounds (t := n.total) (r := r) ?_ hrounds]
    · simp only [hcal, true_and]
    · rw [add_eq hdays htime, ← Int.cast_add]
      exact hr
  · rw [hout hcal, if_neg fun h => hcal h.1]
    rfl

/-- **Composition is exact.** The fields stand for a whole number of milliseconds; where it is a
time it is the result, and where it is none there is no result. -/
theorem Truncates.compose_utc (hf : f.Truncates n) (hn : n.Bounded) :
    f.compose .utc =
      if n.InCalendar ∧ n.total.natAbs ≤ Instant.limit then .ofInt n.total else .nan := by
  simp only [compose_eq, Instant.clip]
  rw [hf.clip?_wallTime hn]
  split <;> rfl

end Compose

/-! ## There and back -/

section Inverse

variable {n : WholeFields} {f : DateFields} {time : Double} {t : ℤ}

theorem truncates_toFields (hn : n.Bounded) : n.toFields.Truncates n := by
  obtain ⟨hyear, hmonth, hday, hhours, hminutes, hseconds, hmillis⟩ := hn
  have key : ∀ m : ℤ, m.natAbs ≤ 10 ^ 15 → (ofInt m : Double).truncate? = some m :=
    fun m hm => (isInt_ofInt (by omega)).truncate?
  exact ⟨key _ (by omega), key _ (by omega), key _ (by omega), key _ (by omega),
    key _ (by omega), key _ (by omega), key _ (by omega)⟩

theorem compose_utc_of_normal (h : n.Normal) (hc : n.InCalendar) :
    n.toFields.compose .utc = .ofInt n.total := by
  have hbounded := h.bounded hc
  obtain ⟨hlow, hhigh⟩ := h.inCalendar_iff.1 hc
  have hlimit : n.total.natAbs ≤ Instant.limit := by
    unfold Instant.first at hlow
    unfold Instant.last at hhigh
    unfold Instant.limit
    omega
  rw [(truncates_toFields hbounded).compose_utc hbounded, if_pos ⟨hc, hlimit⟩]

theorem ofTime?_utc (ht : time.IsInt t) (hlow : Instant.first ≤ t) (hhigh : t ≤ Instant.last) :
    ofTime? time .utc = some (WholeFields.ofWall t).toFields := by
  rw [ofTime?, Instant.ofDouble?_of_isInt ht hlow hhigh]
  rfl

/-- The time of an instant's fields is the instant. -/
theorem compose_utc_ofWall (hlow : Instant.first ≤ t) (hhigh : t ≤ Instant.last) :
    (WholeFields.ofWall t).toFields.compose .utc = .ofInt t := by
  have hnormal := WholeFields.normal_ofWall t
  have hc : (WholeFields.ofWall t).InCalendar := by
    rw [hnormal.inCalendar_iff, WholeFields.total_ofWall]
    exact ⟨hlow, hhigh⟩
  rw [compose_utc_of_normal hnormal hc, WholeFields.total_ofWall]

/-- The fields of normal fields' time are the fields. -/
theorem ofTime?_compose_utc (h : n.Normal) (hc : n.InCalendar) :
    ofTime? (n.toFields.compose .utc) .utc = some n.toFields := by
  obtain ⟨hlow, hhigh⟩ := h.inCalendar_iff.1 hc
  have hint : (ofInt n.total : Double).IsInt n.total := isInt_ofInt (by
    unfold Instant.first at hlow
    unfold Instant.last at hhigh
    omega)
  rw [compose_utc_of_normal h hc, ofTime?_utc hint hlow hhigh, h.ofWall_total]

theorem set_get (f : DateFields) (field : DateField) : field.set f (field.get f) = f := by
  cases field <;> rfl

/-- Setting a field to the value that it has composes the same fields again. -/
theorem replace_get (h : ofTime? time zone = some f) (field : DateField) :
    replace time zone field (field.get f) = f.compose zone := by
  rw [replace, h, Option.elim_some, set_get]

/-- **Composing and reading fields are exact, and inverse to each other.** What is composed of whole
numbers is the number of milliseconds that they stand for, as long as that is a time; the fields of
an instant make up that instant again, so that nothing changes when one of them is set to the value
that it has; and fields in their ranges are read back as they were given. The first days of months
are those of the Gregorian calendar: day zero is the first of January 1970, and each month begins
where the one before it ends. -/
theorem composition_exact :
    (∀ (f : DateFields) (n : WholeFields), f.Truncates n → n.Bounded →
      f.compose .utc =
        if n.InCalendar ∧ n.total.natAbs ≤ Instant.limit then .ofInt n.total else .nan) ∧
    (∀ (time : Double) (t : ℤ), time.IsInt t → Instant.first ≤ t → t ≤ Instant.last →
      ∃ f, ofTime? time .utc = some f ∧ f.compose .utc = .ofInt t ∧
        ∀ field, replace time .utc field (field.get f) = .ofInt t) ∧
    (∀ n : WholeFields, n.Normal → Instant.firstYear ≤ n.year → n.year ≤ Instant.lastYear →
      ofTime? (n.toFields.compose .utc) .utc = some n.toFields) ∧
    (monthStart 1970 0 = 0 ∧
      (∀ year month, month < 11 →
        monthStart year (month + 1) = monthStart year month + monthLength (isLeap year) month) ∧
      ∀ year, monthStart (year + 1) 0 = monthStart year 11 + 31) := by
  refine ⟨fun f n hf hn => hf.compose_utc hn, fun time t ht hlow hhigh => ?_,
    fun n hn hlow hhigh => ?_,
    ⟨monthStart_epoch, fun _ _ => monthStart_succ, fun _ => monthStart_succ_year⟩⟩
  · have hfields := ofTime?_utc ht hlow hhigh
    have hcompose := compose_utc_ofWall hlow hhigh
    exact ⟨_, hfields, hcompose, fun field => (replace_get hfields field).trans hcompose⟩
  · have hc : n.InCalendar := by
      rw [WholeFields.InCalendar, hn.rolledYear_eq]
      exact ⟨hlow, hhigh⟩
    exact ofTime?_compose_utc hn hc

/-- Noon of a leap day, in the month after the last of the year before. -/
def lateNoon : WholeFields := ⟨2023, 13, 29, 12, 34, 56, 0⟩

/-- Noon of a leap day. -/
def leapNoon : WholeFields := ⟨2024, 1, 29, 12, 34, 56, 0⟩

theorem leapNoon_composes :
    lateNoon.toFields.compose .utc = .ofInt 1709210096000 ∧
      (∃ f, ofTime? (.ofInt 1709210096000) .utc = some f ∧ f.compose .utc = .ofInt 1709210096000 ∧
        ∀ field, replace (.ofInt 1709210096000) .utc field (field.get f) = .ofInt 1709210096000) ∧
      ofTime? (leapNoon.toFields.compose .utc) .utc = some leapNoon.toFields := by
  obtain ⟨composed, back, there, -⟩ := composition_exact
  have hbounded : lateNoon.Bounded :=
    ⟨by decide, by decide, by decide, by decide, by decide, by decide, by decide⟩
  have hnormal : leapNoon.Normal :=
    ⟨by decide, by decide, by decide, by decide, by decide, by decide⟩
  refine ⟨?_, back _ _ (isInt_ofInt (by decide)) (by decide) (by decide),
    there leapNoon hnormal (by decide) (by decide)⟩
  have htotal : lateNoon.total = 1709210096000 := by decide
  rw [composed _ _ (truncates_toFields hbounded) hbounded, htotal, if_pos (by decide)]

end Inverse

end DateFields

end GuestBridge
