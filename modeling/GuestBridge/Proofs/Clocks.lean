import GuestBridge.Proofs.Dates

/-!
# Dates of the eastern clock

The clock is put forward on a Sunday in March and back on one in November, so it skips an hour of
readings and shows another hour of them twice. Everywhere else readings and instants correspond one
to one. The year of an instant and the year of its reading can differ, but neither change of the
clock is near the end of a year: whether it is daylight time depends on the instant alone.

* `Instant.isDaylight_iff`, `Instant.isDaylightWall_iff`: **daylight time**, without the year of the
  instant or of the reading.
* `Instant.ofWall_toWall`: **an instant is found again from its reading**, or the one an hour later
  is that has the same reading.
* `Instant.toWall_ofWall`: **a reading is shown at the instant that it is taken for**, or the one an
  hour later is if the clock skips it.
* `DateFields.clock_round_trips`: the same for the fields of dates.
-/

namespace GuestBridge

open Binary Calendar

namespace Instant

variable {t w y : ℤ}

/-- Midnight before the clock is put forward. -/
def spring (y : ℤ) : ℤ := nthSunday y 2 2 * day

/-- Midnight before the clock is put back. -/
def autumn (y : ℤ) : ℤ := nthSunday y 10 1 * day

/-- The clock skips the reading: it is put forward from two o'clock to three. -/
def Skipped (w : ℤ) : Prop := ∃ y, spring y + 2 * hour ≤ w ∧ w < spring y + 3 * hour

/-- The last hour of daylight time, the readings of which are shown again in the next hour. -/
def Repeated (t : ℤ) : Prop := ∃ y, autumn y + 5 * hour ≤ t ∧ t < autumn y + 6 * hour

theorem yearOf_eq (hlow : monthStart y 0 * day ≤ t) (hhigh : t < monthStart (y + 1) 0 * day) :
    yearOf t = y := by
  refine year_dateOf_eq_iff.2 ?_
  unfold dayOf
  unfold day at *
  omega

/-- Both changes are months away from the ends of the year. -/
theorem changes_bounds (y : ℤ) :
    monthStart y 0 * day + 60 * day ≤ spring y ∧ spring y + 200 * day ≤ autumn y ∧
      autumn y + 50 * day ≤ monthStart (y + 1) 0 * day := by
  have hspring := nthSunday_bounds y 2 2
  have hautumn := nthSunday_bounds y 10 1
  have table : ∀ leap, daysBeforeMonth leap 0 = 0 ∧ 59 ≤ daysBeforeMonth leap 2 ∧
      daysBeforeMonth leap 2 ≤ 60 ∧ 304 ≤ daysBeforeMonth leap 10 ∧
      daysBeforeMonth leap 10 ≤ 305 ∧ 365 ≤ yearLength leap := by
    decide
  obtain ⟨hzero, h₁, h₂, h₃, h₄, h₅⟩ := table (isLeap y)
  have hzero' := (table (isLeap (y + 1))).1
  have hyear := daysBeforeYear_add_yearLength y
  simp only [monthStart_eq, hzero, hzero'] at *
  unfold spring autumn day
  omega

/-- Near daylight time the year is the one of its changes. -/
theorem yearOf_eq_of_mem (hlow : spring y ≤ t) (hhigh : t ≤ autumn y + day) : yearOf t = y := by
  obtain ⟨hspring, -, hautumn⟩ := changes_bounds y
  refine yearOf_eq ?_ ?_ <;> unfold day at * <;> omega

/-- The year of a moment in daylight time need not be known. -/
theorem mem_summer_iff {a b : ℤ} (ha : 0 ≤ a) (hb : b ≤ day) :
    spring (yearOf t) + a ≤ t ∧ t < autumn (yearOf t) + b ↔
      ∃ y, spring y + a ≤ t ∧ t < autumn y + b := by
  refine ⟨fun h => ⟨_, h⟩, fun ⟨y, hlow, hhigh⟩ => ?_⟩
  rw [yearOf_eq_of_mem (y := y) (by omega) (by omega)]
  exact ⟨hlow, hhigh⟩

/-- **Daylight time.** -/
theorem isDaylight_iff :
    isDaylight t = true ↔ ∃ y, spring y + 7 * hour ≤ t ∧ t < autumn y + 6 * hour := by
  rw [← mem_summer_iff (by decide) (by decide), isDaylight, Bool.and_eq_true, decide_eq_true_eq,
    decide_eq_true_eq]
  rfl

/-- **Readings that are taken as daylight time.** -/
theorem isDaylightWall_iff :
    isDaylightWall w = true ↔ ∃ y, spring y + 3 * hour ≤ w ∧ w < autumn y + 1 * hour := by
  rw [← mem_summer_iff (by decide) (by decide), isDaylightWall, Bool.and_eq_true,
    decide_eq_true_eq, decide_eq_true_eq]
  rfl

/-- Two summers that the same moment is in are one. -/
theorem summer_unique {y' : ℤ} (hlow : spring y ≤ t) (hhigh : t ≤ autumn y + day)
    (hlow' : spring y' ≤ t) (hhigh' : t ≤ autumn y' + day) : y = y' :=
  (yearOf_eq_of_mem hlow hhigh).symm.trans (yearOf_eq_of_mem hlow' hhigh')

/-! ## There and back -/

theorem day_eq : day = 24 * hour := by decide

theorem hour_pos : 0 < hour := by decide

theorem spring_add_le (y : ℤ) : spring y + 200 * day ≤ autumn y := (changes_bounds y).2.1

/-- The reading of daylight time is taken as daylight time, but for the last hour. -/
theorem isDaylightWall_sub_iff (h : isDaylight t = true) :
    isDaylightWall (t - 4 * hour) = true ↔ ¬ Repeated t := by
  obtain ⟨y, hlow, hhigh⟩ := isDaylight_iff.1 h
  have hday := day_eq
  have hhour := hour_pos
  rw [isDaylightWall_iff]
  constructor
  · rintro ⟨y₁, hlow₁, hhigh₁⟩ ⟨y₂, hlow₂, hhigh₂⟩
    have hle := spring_add_le y₂
    -- summers do not overlap, so both bounds are about one year
    obtain rfl : y₁ = y₂ := summer_unique (t := t) (by omega) (by omega) (by omega) (by omega)
    omega
  · intro hrep
    have hlast : t < autumn y + 5 * hour := by
      by_contra hge
      exact hrep ⟨y, by omega, hhigh⟩
    exact ⟨y, by omega, by omega⟩

/-- The reading of standard time is not taken as daylight time. -/
theorem isDaylightWall_sub_eq_false (h : isDaylight t = false) :
    isDaylightWall (t - 5 * hour) = false := by
  have hhour := hour_pos
  refine Bool.eq_false_iff.2 fun hwall => ?_
  obtain ⟨y, hlow, hhigh⟩ := isDaylightWall_iff.1 hwall
  have hday : isDaylight t = true := isDaylight_iff.2 ⟨y, by omega, by omega⟩
  exact Bool.false_ne_true (h.symm.trans hday)

/-- The last hour of daylight time is daylight time. -/
theorem Repeated.isDaylight (h : Repeated t) : isDaylight t = true := by
  obtain ⟨y, hlow, hhigh⟩ := h
  have hle := spring_add_le y
  have hday := day_eq
  have hhour := hour_pos
  exact isDaylight_iff.2 ⟨y, by omega, hhigh⟩

/-- What is taken as daylight time is in daylight time. -/
theorem isDaylight_add_of_wall (h : isDaylightWall w = true) : isDaylight (w + 4 * hour) = true := by
  obtain ⟨y, hlow, hhigh⟩ := isDaylightWall_iff.1 h
  have hhour := hour_pos
  exact isDaylight_iff.2 ⟨y, by omega, by omega⟩

/-- Of what is taken as standard time, the skipped hour is in daylight time. -/
theorem isDaylight_add_iff (h : isDaylightWall w = false) :
    isDaylight (w + 5 * hour) = true ↔ Skipped w := by
  have hday := day_eq
  have hhour := hour_pos
  rw [isDaylight_iff]
  constructor
  · rintro ⟨y, hlow, hhigh⟩
    refine ⟨y, by omega, ?_⟩
    by_contra hge
    have hwall : isDaylightWall w = true := isDaylightWall_iff.2 ⟨y, by omega, by omega⟩
    exact Bool.false_ne_true (h.symm.trans hwall)
  · rintro ⟨y, hlow, hhigh⟩
    have hle := spring_add_le y
    exact ⟨y, by omega, by omega⟩

/-- The skipped hour is not taken as daylight time. -/
theorem Skipped.isDaylightWall (h : Skipped w) : isDaylightWall w = false := by
  obtain ⟨y, hlow, hhigh⟩ := h
  have hle := spring_add_le y
  have hday := day_eq
  have hhour := hour_pos
  refine Bool.eq_false_iff.2 fun hwall => ?_
  obtain ⟨y', hlow', hhigh'⟩ := isDaylightWall_iff.1 hwall
  obtain rfl : y = y' := summer_unique (t := w) (by omega) (by omega) (by omega) (by omega)
  omega

theorem toWall_of_daylight (h : isDaylight t = true) : toWall .eastern t = t - 4 * hour := by
  simp only [toWall, behind, h, if_true]

theorem toWall_of_standard (h : isDaylight t = false) : toWall .eastern t = t - 5 * hour := by
  rw [toWall, behind, h, if_neg Bool.false_ne_true]

theorem ofWall_of_daylight (h : isDaylightWall w = true) : ofWall w = w + 4 * hour := if_pos h

theorem ofWall_of_standard (h : isDaylightWall w = false) : ofWall w = w + 5 * hour := by
  rw [ofWall, h, if_neg Bool.false_ne_true]

/-- **An instant is found again from its reading**, but the last hour of daylight time is taken for
the hour after it. -/
theorem ofWall_toWall (t : ℤ) :
    (Repeated t → ofWall (toWall .eastern t) = t + hour) ∧
      (¬ Repeated t → ofWall (toWall .eastern t) = t) := by
  constructor
  · intro hrep
    have hday := hrep.isDaylight
    have hwall : isDaylightWall (t - 4 * hour) = false := by
      rw [Bool.eq_false_iff, Ne, isDaylightWall_sub_iff hday]
      exact not_not_intro hrep
    rw [toWall_of_daylight hday, ofWall_of_standard hwall]
    omega
  · intro hrep
    cases hday : isDaylight t with
    | true =>
      rw [toWall_of_daylight hday, ofWall_of_daylight ((isDaylightWall_sub_iff hday).2 hrep)]
      omega
    | false =>
      rw [toWall_of_standard hday, ofWall_of_standard (isDaylightWall_sub_eq_false hday)]
      omega

/-- **A reading is shown at the instant that it is taken for**, but the clock shows the hour after
one that it skips. -/
theorem toWall_ofWall (w : ℤ) :
    (Skipped w → toWall .eastern (ofWall w) = w + hour) ∧
      (¬ Skipped w → toWall .eastern (ofWall w) = w) := by
  constructor
  · intro hskip
    have hwall := hskip.isDaylightWall
    rw [ofWall_of_standard hwall, toWall_of_daylight ((isDaylight_add_iff hwall).2 hskip)]
    omega
  · intro hskip
    cases hwall : isDaylightWall w with
    | true =>
      rw [ofWall_of_daylight hwall, toWall_of_daylight (isDaylight_add_of_wall hwall)]
      omega
    | false =>
      have hday : isDaylight (w + 5 * hour) = false := by
        rw [Bool.eq_false_iff, Ne, isDaylight_add_iff hwall]
        exact hskip
      rw [ofWall_of_standard hwall, toWall_of_standard hday]
      omega

/-- The instant that a reading is taken for is as far behind as the clock is at that instant, unless
the clock skips the reading. -/
theorem ofWall_eq_add_behind (h : ¬ Skipped w) : ofWall w = w + behind (ofWall w) := by
  have heq := (toWall_ofWall w).2 h
  rw [toWall] at heq
  omega

theorem toWall_bounds (t : ℤ) :
    t - 5 * hour ≤ toWall .eastern t ∧ toWall .eastern t ≤ t - 4 * hour := by
  have hhour := hour_pos
  rw [toWall, behind]
  split <;> omega

theorem behind_eq (t : ℤ) : behind t = 240 * 60000 ∨ behind t = 300 * 60000 := by
  unfold behind
  split
  · exact .inl rfl
  · exact .inr rfl

end Instant

namespace DateFields

open Instant (first last hour)

variable {n : WholeFields} {time : Double} {t : ℤ}

theorem compose_eastern_of_normal (h : n.Normal) (hc : n.InCalendar) :
    n.toFields.compose .eastern = .ofInt (Instant.ofWall n.total) := by
  have hbounded := h.bounded hc
  have hrange := h.inCalendar_iff.1 hc
  have hlimit : n.total.natAbs ≤ Instant.limit ∧
      (Instant.ofWall n.total).natAbs ≤ Instant.limit := by
    have heq := Instant.ofWall_eq n.total
    unfold first last at hrange
    unfold hour at heq
    unfold Instant.limit
    omega
  have hwall : Instant.ofDouble? n.toFields.wallTime = some n.total := by
    rw [Instant.ofDouble?, (truncates_toFields hbounded).clip?_wallTime hbounded,
      if_pos ⟨hc, hlimit.1⟩, Option.filter_some, if_pos (by simpa using hrange)]
  have hint : (ofInt (Instant.ofWall n.total) : Double).IsInt (Instant.ofWall n.total) := by
    have hle := hlimit.2
    unfold Instant.limit at hle
    exact isInt_ofInt (by omega)
  simp only [compose_eq, hwall, Option.elim_some, Instant.clip, Instant.clip?_of_isInt hint,
    if_pos hlimit.2]

theorem ofTime?_eastern (ht : time.IsInt t) (hlow : first ≤ t) (hhigh : t ≤ last) :
    ofTime? time .eastern = some (WholeFields.ofWall (Instant.toWall .eastern t)).toFields := by
  rw [ofTime?, Instant.ofDouble?_of_isInt ht hlow hhigh]
  rfl

theorem minutesBehind_eq (ht : time.IsInt t) (hlow : first ≤ t) (hhigh : t ≤ last) :
    Instant.minutesBehind time = .ofInt (Instant.behind t / 60000) := by
  rw [Instant.minutesBehind, Instant.ofDouble?_of_isInt ht hlow hhigh, Option.elim_some]

/-- What the clock shows within a day of the range is in the range. -/
theorem compose_eastern_ofWall_toWall (hlow : first + Instant.day ≤ t) (hhigh : t ≤ last - Instant.day) :
    (WholeFields.ofWall (Instant.toWall .eastern t)).toFields.compose .eastern =
      .ofInt (Instant.ofWall (Instant.toWall .eastern t)) := by
  have hnormal := WholeFields.normal_ofWall (Instant.toWall .eastern t)
  have hc : (WholeFields.ofWall (Instant.toWall .eastern t)).InCalendar := by
    have hbounds := Instant.toWall_bounds t
    rw [hnormal.inCalendar_iff, WholeFields.total_ofWall]
    unfold Instant.day at *
    unfold hour at *
    omega
  rw [compose_eastern_of_normal hnormal hc, WholeFields.total_ofWall]

section Reading

variable (h : n.Normal) (hlow : first + Instant.day ≤ n.total) (hhigh : n.total ≤ last - Instant.day)

include h hlow hhigh

/-- The instant that a reading is taken for, and the clock at that instant. -/
theorem compose_eastern_reading :
    n.InCalendar ∧ first ≤ Instant.ofWall n.total ∧ Instant.ofWall n.total ≤ last ∧
      (n.toFields.compose .eastern).IsInt (Instant.ofWall n.total) := by
  have heq := Instant.ofWall_eq n.total
  have hc : n.InCalendar := by
    rw [h.inCalendar_iff]
    unfold Instant.day at *
    omega
  have hrange : first ≤ Instant.ofWall n.total ∧ Instant.ofWall n.total ≤ last := by
    unfold Instant.day at *
    unfold hour at *
    omega
  refine ⟨hc, hrange.1, hrange.2, ?_⟩
  rw [compose_eastern_of_normal h hc]
  unfold first last at hrange
  exact isInt_ofInt (by omega)

theorem ofTime?_compose_eastern :
    ofTime? (n.toFields.compose .eastern) .eastern =
      some (WholeFields.ofWall (Instant.toWall .eastern (Instant.ofWall n.total))).toFields := by
  obtain ⟨-, hfirst, hlast, hint⟩ := compose_eastern_reading h hlow hhigh
  exact ofTime?_eastern hint hfirst hlast

/-- Local time is the time of Greenwich and the minutes that the clock is behind. -/
theorem compose_eastern_eq_add (hskip : ¬ Instant.Skipped n.total) :
    n.toFields.compose .eastern =
      n.toFields.compose .utc + Instant.minutesBehind (n.toFields.compose .eastern) * 60000 := by
  obtain ⟨hc, hfirst, hlast, hint⟩ := compose_eastern_reading h hlow hhigh
  have hbehind := Instant.ofWall_eq_add_behind hskip
  have hminutes := Instant.behind_eq (Instant.ofWall n.total)
  -- the clock is behind by whole hours, so the product of the minutes is exact
  have hproduct : (ofInt (Instant.behind (Instant.ofWall n.total) / 60000) * 60000 : Double) =
      ofInt (Instant.behind (Instant.ofWall n.total)) := by
    have hmul : Instant.behind (Instant.ofWall n.total) / 60000 * 60000 =
        Instant.behind (Instant.ofWall n.total) := by omega
    calc (ofInt (Instant.behind (Instant.ofWall n.total) / 60000) * 60000 : Double)
        = ofInt (Instant.behind (Instant.ofWall n.total) / 60000 * 60000) :=
          ofInt_mul (n := 60000) (by omega) (by decide) (by omega)
      _ = ofInt (Instant.behind (Instant.ofWall n.total)) := by rw [hmul]
  rw [minutesBehind_eq hint hfirst hlast, hproduct, compose_utc_of_normal h hc,
    compose_eastern_of_normal h hc]
  unfold first Instant.day at hlow
  unfold last Instant.day at hhigh
  rw [ofInt_add (by omega) (by omega), ← hbehind]

end Reading

/-- **Local dates are read back as they were put together, but at the two changes of the clock.**
The fields of an instant make up that instant, or the one an hour later in the last hour of daylight
time; fields in their ranges are read back as they were given, or an hour later if the clock skips
them. So local time is the time of Greenwich and the minutes that the clock is behind, for every
reading that the clock shows. -/
theorem clock_round_trips :
    (∀ (time : Double) (t : ℤ), time.IsInt t → first + Instant.day ≤ t → t ≤ last - Instant.day →
      ∃ f, ofTime? time .eastern = some f ∧
        (Instant.Repeated t → f.compose .eastern = .ofInt (t + hour)) ∧
        (¬ Instant.Repeated t → f.compose .eastern = .ofInt t)) ∧
    (∀ n : WholeFields, n.Normal → first + Instant.day ≤ n.total → n.total ≤ last - Instant.day →
      (Instant.Skipped n.total → ofTime? (n.toFields.compose .eastern) .eastern =
        some (WholeFields.ofWall (n.total + hour)).toFields) ∧
      (¬ Instant.Skipped n.total →
        ofTime? (n.toFields.compose .eastern) .eastern = some n.toFields ∧
        n.toFields.compose .eastern = n.toFields.compose .utc +
          Instant.minutesBehind (n.toFields.compose .eastern) * 60000)) := by
  refine ⟨fun time t ht hlow hhigh => ?_, fun n h hlow hhigh => ?_⟩
  · obtain ⟨hrep, hnot⟩ := Instant.ofWall_toWall t
    have hcompose := compose_eastern_ofWall_toWall hlow hhigh
    refine ⟨_, ofTime?_eastern ht ?_ ?_, fun h => ?_, fun h => ?_⟩
    · unfold Instant.day at hlow
      omega
    · unfold Instant.day at hhigh
      omega
    · rw [hcompose, hrep h]
    · rw [hcompose, hnot h]
  · obtain ⟨hskip, hnot⟩ := Instant.toWall_ofWall n.total
    have hread := ofTime?_compose_eastern h hlow hhigh
    refine ⟨fun hs => ?_, fun hs => ⟨?_, compose_eastern_eq_add h hlow hhigh hs⟩⟩
    · rw [hread, hskip hs]
    · rw [hread, hnot hs, h.ofWall_total]

/-- Half past two on the day on which the clock is put forward. -/
def beforeThree : WholeFields := ⟨2021, 2, 14, 2, 30, 0, 0⟩

/-- A morning in July. -/
def julyMorning : WholeFields := ⟨2021, 6, 15, 9, 30, 0, 0⟩

theorem clock_round_trips_2021 :
    (∃ f, ofTime? (.ofInt 1636263000000) .eastern = some f ∧
      f.compose .eastern = .ofInt (1636263000000 + hour)) ∧
    (∃ f, ofTime? (.ofInt 1709210096000) .eastern = some f ∧
      f.compose .eastern = .ofInt 1709210096000) ∧
    ofTime? (beforeThree.toFields.compose .eastern) .eastern =
      some (WholeFields.ofWall (beforeThree.total + hour)).toFields ∧
    ofTime? (julyMorning.toFields.compose .eastern) .eastern = some julyMorning.toFields ∧
    julyMorning.toFields.compose .eastern = julyMorning.toFields.compose .utc +
      Instant.minutesBehind (julyMorning.toFields.compose .eastern) * 60000 := by
  obtain ⟨instants, readings⟩ := clock_round_trips
  have hrepeated : Instant.Repeated 1636263000000 :=
    ⟨2021, by decide +kernel, by decide +kernel⟩
  have hwinter : ¬ Instant.Repeated 1709210096000 := fun h =>
    absurd h.isDaylight (by decide +kernel)
  have hskipped : Instant.Skipped beforeThree.total := ⟨2021, by decide +kernel, by decide +kernel⟩
  have hsummer : ¬ Instant.Skipped julyMorning.total := fun h =>
    absurd h.isDaylightWall (by decide +kernel)
  obtain ⟨f, hf, hlater, -⟩ := instants _ 1636263000000 (isInt_ofInt (by decide)) (by decide)
    (by decide)
  obtain ⟨g, hg, -, hsame⟩ := instants _ 1709210096000 (isInt_ofInt (by decide)) (by decide)
    (by decide)
  have hmarch : beforeThree.Normal :=
    ⟨by decide, by decide, by decide, by decide, by decide, by decide⟩
  have hjuly : julyMorning.Normal :=
    ⟨by decide, by decide, by decide, by decide, by decide, by decide⟩
  have htwo := (readings beforeThree hmarch (by decide) (by decide)).1 hskipped
  have hnine := (readings julyMorning hjuly (by decide) (by decide)).2 hsummer
  exact ⟨⟨f, hf, hlater hrepeated⟩, ⟨g, hg, hsame hwinter⟩, htwo, hnine⟩

end DateFields

end GuestBridge
