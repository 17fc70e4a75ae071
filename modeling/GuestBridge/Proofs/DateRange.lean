import GuestBridge.Call
import GuestBridge.Proofs.Dates
import GuestBridge.Proofs.Leads
import GuestBridge.Proofs.Nearest

/-!
# Dates at the ends of the calendar

The calendar covers fewer times than there are. A date of Greenwich is composed without looking
whether the calendar covers it, and the time that comes out is read back only if it does. So the
days past the last month are times, but not dates: they are composed, and then no field can be
read or set.

* `BridgeM.IsDate`, `BridgeM.NoDate`: **what the imports find in a time.**
* `BridgeM.Makes.exists_compose`: what the imports make has been composed.
* `BridgeM.dates_are_closed_in_range`: **a time that is made is a date just if the calendar covers
  it**, and is found to be none only when it is read otherwise.
-/

namespace GuestBridge

open Binary

/-! ## Times in and out of the calendar -/

namespace Instant

variable {t : ℤ}

/-- The calendar covers the instant. -/
def InRange (t : ℤ) : Prop := first ≤ t ∧ t ≤ last

instance (t : ℤ) : Decidable (InRange t) := inferInstanceAs (Decidable (_ ∧ _))

theorem isInt_ofInt_of_limit (ht : t.natAbs ≤ limit) : (ofInt t : Double).IsInt t := by
  refine isInt_ofInt ?_
  unfold limit at ht
  omega

theorem InRange.natAbs_le (h : InRange t) : t.natAbs ≤ limit := by
  obtain ⟨hfirst, hlast⟩ := h
  unfold first at hfirst
  unfold last at hlast
  unfold limit
  omega

/-- What the calendar does not cover is no instant. -/
theorem ofDouble?_of_not_inRange (ht : t.natAbs ≤ limit) (h : ¬ InRange t) :
    ofDouble? (ofInt t) = none := by
  rw [ofDouble?, clip?_of_isInt (isInt_ofInt_of_limit ht), if_pos ht, Option.filter_some, if_neg]
  simpa [InRange] using h

/-- A number that has been clipped is a whole number in the limits. -/
theorem exists_of_clip {x : Double} (h : clip x ≠ .nan) :
    ∃ t : ℤ, clip x = .ofInt t ∧ t.natAbs ≤ limit := by
  unfold clip at h ⊢
  cases ht : clip? x with
  | none =>
    rw [ht] at h
    exact absurd rfl h
  | some t => exact ⟨t, rfl, by simpa using (Option.filter_eq_some_iff.1 ht).2⟩

end Instant

namespace DateFields

/-- The fields of a clock are numbers. -/
theorem get_toFields_ne_nan (n : WholeFields) (field : DateField) :
    field.get n.toFields ≠ .nan := by
  cases field <;> exact ofInt_ne_nan _

/-- **What is composed is a time**, or no number. -/
theorem exists_of_compose_utc {f : DateFields} (h : f.compose .utc ≠ .nan) :
    ∃ t : ℤ, f.compose .utc = .ofInt t ∧ t.natAbs ≤ Instant.limit := by
  rw [compose_eq] at h ⊢
  exact Instant.exists_of_clip h

end DateFields

/-! ## The imports -/

namespace BridgeM

variable {run : Runner} {held : List HostId} {w w' : World} {name : String}
  {args : List GuestValue} {x y : Double} {t : ℤ} {f : DateFields}

/-- **An import of the date module gives a number**, whatever the state, and leaves the state. -/
def Gives (name : String) (args : List GuestValue) (y : Double) : Prop :=
  ∀ run held w, callFrom run .defaults ImportObject.dateModule name args held w =
    .ok (some (.f64 y)) w

/-- The name of the import that reads a field on the clock of Greenwich. -/
def getter (field : DateField) : String := "getUTC" ++ field.name

/-- The name of the import that sets it. -/
def setter (field : DateField) : String := "setUTC" ++ field.name

/-- The imports that make a time out of fields of Greenwich. -/
inductive Makes : String → Prop
  | create : Makes "createFromUTC"
  | set (field : DateField) : Makes (setter field)

/-- The fields that such an import puts together, for numbers. -/
inductive Composes : String → List GuestValue → DateFields → Prop
  | create {f : DateFields} (millis : f.millis = 0) :
      Composes "createFromUTC"
        [.f64 f.year, .f64 f.month, .f64 f.day, .f64 f.hours, .f64 f.minutes, .f64 f.seconds] f
  | set {time v : Double} {field : DateField} {f : DateFields}
      (read : DateFields.ofTime? time .utc = some f) :
      Composes (setter field) [.f64 time, .f64 v] (field.set f v)

/-- **A date**: every field can be read, and set to what is read without changing the time. -/
structure IsDate (x : Double) : Prop where
  fields : ∀ field, ∃ v, v ≠ .nan ∧ Gives (getter field) [.f64 x] v ∧
    Gives (setter field) [.f64 x, .f64 v] x
  weekday : ∃ v, v ≠ .nan ∧ Gives "getUTCDay" [.f64 x] v

/-- **No date**: no field can be read or set. -/
structure NoDate (x : Double) : Prop where
  read : ∀ field, Gives (getter field) [.f64 x] .nan
  set : ∀ field v, Gives (setter field) [.f64 x, .f64 v] .nan
  weekday : Gives "getUTCDay" [.f64 x] .nan

theorem get?_defaults_createFromUTC :
    ImportObject.defaults.get? ImportObject.dateModule "createFromUTC" =
      some (.composeDate .utc) := rfl

theorem get?_defaults_getter (field : DateField) :
    ImportObject.defaults.get? ImportObject.dateModule (getter field) =
      some (.getDateField .utc field) := by
  cases field <;> rfl

theorem get?_defaults_setter (field : DateField) :
    ImportObject.defaults.get? ImportObject.dateModule (setter field) =
      some (.setDateField .utc field) := by
  cases field <;> rfl

theorem get?_defaults_getUTCDay :
    ImportObject.defaults.get? ImportObject.dateModule "getUTCDay" = some (.weekday .utc) := rfl

/-- An import that is there is called. -/
theorem callFrom_run {imports : ImportObject} {module : String} {f : ImportFunction}
    (h : imports.get? module name = some f) (run : Runner) (args : List GuestValue)
    (held : List HostId) (w : World) :
    callFrom run imports module name args held w = callImportFunction run f args held w := by
  rw [callFrom, ImportObject.resolve, h]
  rfl

theorem gives_getter (field : DateField) (x : Double) :
    Gives (getter field) [.f64 x] ((DateFields.ofTime? x .utc).elim .nan fun f => field.get f) := by
  intro run held w
  rw [callFrom_run (get?_defaults_getter field)]
  rfl

theorem gives_setter (field : DateField) (x v : Double) :
    Gives (setter field) [.f64 x, .f64 v] (DateFields.replace x .utc field v) := by
  intro run held w
  rw [callFrom_run (get?_defaults_setter field)]
  rfl

theorem gives_getUTCDay (x : Double) : Gives "getUTCDay" [.f64 x] (Instant.weekday x .utc) := by
  intro run held w
  rw [callFrom_run get?_defaults_getUTCDay]
  rfl

/-! ## Reading times -/

/-- **A time that the calendar covers is a date.** -/
theorem isDate_of_inRange (h : Instant.InRange t) : IsDate (.ofInt t) := by
  have hint := Instant.isInt_ofInt_of_limit h.natAbs_le
  have hfields := DateFields.ofTime?_utc hint h.1 h.2
  refine ⟨fun field => ⟨field.get (WholeFields.ofWall t).toFields, ?_, ?_, ?_⟩, ?_⟩
  · exact DateFields.get_toFields_ne_nan _ field
  · have hget := gives_getter field (.ofInt t)
    rwa [hfields] at hget
  · have hset := gives_setter field (.ofInt t) (field.get (WholeFields.ofWall t).toFields)
    rwa [DateFields.replace_get hfields, DateFields.compose_utc_ofWall h.1 h.2] at hset
  · have hday := gives_getUTCDay (.ofInt t)
    rw [Instant.weekday, Instant.ofDouble?_of_isInt hint h.1 h.2, Option.elim_some] at hday
    exact ⟨_, ofInt_ne_nan _, hday⟩

/-- **A time that it does not cover is none.** -/
theorem noDate_of_not_inRange (ht : t.natAbs ≤ Instant.limit) (h : ¬ Instant.InRange t) :
    NoDate (.ofInt t) := by
  have hnone := Instant.ofDouble?_of_not_inRange ht h
  have hfields : DateFields.ofTime? (.ofInt t) .utc = none := by
    rw [DateFields.ofTime?, hnone]
    rfl
  refine ⟨fun field => ?_, fun field v => ?_, ?_⟩
  · have hget := gives_getter field (.ofInt t)
    rwa [hfields] at hget
  · have hset := gives_setter field (.ofInt t) v
    rwa [DateFields.replace, hfields] at hset
  · have hday := gives_getUTCDay (.ofInt t)
    rwa [Instant.weekday, hnone] at hday

/-! ## Making times -/

/-- What comes last gives the result. -/
theorem exists_of_bind_ok {α β : Type} {act : BridgeM α} {f : α → BridgeM β} {b : β}
    (h : (act >>= f) held w = .ok b w') : ∃ a w'', f a held w'' = .ok b w' := by
  rw [bind_run] at h
  split at h
  · exact ⟨_, _, h⟩
  · cases h

/-- **What the imports make has been composed**, unless it is no number. -/
theorem Makes.exists_compose (h : Makes name)
    (hcall : callFrom run .defaults ImportObject.dateModule name args held w =
      .ok (some (.f64 x)) w') (hx : x ≠ .nan) :
    ∃ f : DateFields, x = f.compose .utc := by
  cases h with
  | create =>
    rw [callFrom_run get?_defaults_createFromUTC] at hcall
    obtain ⟨f, _, hresult⟩ := exists_of_bind_ok hcall
    cases hresult
    exact ⟨f, rfl⟩
  | set field =>
    rw [callFrom_run (get?_defaults_setter field)] at hcall
    obtain ⟨time, _, hrest⟩ := exists_of_bind_ok hcall
    obtain ⟨v, _, hresult⟩ := exists_of_bind_ok hrest
    cases hresult
    -- a time without fields has none to replace, and the result is no number
    cases hfields : DateFields.ofTime? time .utc with
    | none =>
      rw [DateFields.replace, hfields] at hx
      exact absurd rfl hx
    | some f => exact ⟨field.set f v, by rw [DateFields.replace, hfields]; rfl⟩

/-- **What is put together is composed.** -/
theorem gives_of_composes (h : Composes name args f) : Gives name args (f.compose .utc) := by
  cases h with
  | create hmillis =>
    intro run held w
    obtain ⟨year, month, day, hours, minutes, seconds, millis⟩ := f
    obtain rfl : millis = 0 := hmillis
    rw [callFrom_run get?_defaults_createFromUTC]
    rfl
  | @set time v field f hread =>
    have hset := gives_setter field time v
    rwa [DateFields.replace, hread] at hset

/-! ## Main result -/

/-- An import gives one number. -/
theorem Gives.unique (h : Gives name args x) (run : Runner) (held : List HostId) (w : World)
    (hcall : callFrom run .defaults ImportObject.dateModule name args held w =
      .ok (some (.f64 y)) w') : x = y := by
  rw [h run held w] at hcall
  cases hcall
  rfl

/-- A date is not none. -/
theorem IsDate.not_noDate (h : IsDate x) (run : Runner) (held : List HostId) (w : World) :
    ¬ NoDate x := by
  intro hnone
  obtain ⟨v, hv, hday⟩ := h.weekday
  exact hv (hday.unique run held w (hnone.weekday run held w))

/-- **Times of Greenwich are closed under making and setting, except past the calendar.** What is
made is no number or a whole number in the limits. If the calendar covers it, it is a date. If not,
it is none, though it is a number. That happens to months that the calendar covers, where days or
hours lead past its ends. -/
theorem dates_are_closed_in_range (hmakes : Makes name)
    (hcall : callFrom run .defaults ImportObject.dateModule name args held w =
      .ok (some (.f64 x)) w') (hx : x ≠ .nan) :
    ∃ t : ℤ, x = .ofInt t ∧ t.natAbs ≤ Instant.limit ∧
      (IsDate x ↔ Instant.InRange t) ∧ (NoDate x ↔ ¬ Instant.InRange t) ∧
      (∀ f n, Composes name args f → f.Truncates n → n.Bounded → n.InCalendar ∧ t = n.total) := by
  obtain ⟨f, rfl⟩ := hmakes.exists_compose hcall hx
  obtain ⟨t, ht, hlimit⟩ := DateFields.exists_of_compose_utc hx
  have hdate : Instant.InRange t → IsDate (.ofInt t) := isDate_of_inRange
  have hnone : ¬ Instant.InRange t → NoDate (.ofInt t) := noDate_of_not_inRange hlimit
  have hdate_iff : IsDate (.ofInt t) ↔ Instant.InRange t :=
    ⟨fun h => not_not.1 fun hout => h.not_noDate run held w (hnone hout), hdate⟩
  have hnone_iff : NoDate (.ofInt t) ↔ ¬ Instant.InRange t :=
    ⟨fun h hin => (hdate hin).not_noDate run held w h, hnone⟩
  rw [ht] at hcall ⊢
  refine ⟨t, rfl, hlimit, hdate_iff, hnone_iff, fun g n hg hn hbounded => ?_⟩
  have hsame := (gives_of_composes hg).unique run held w hcall
  rw [hn.compose_utc hbounded] at hsame
  split_ifs at hsame with hin
  · -- numbers in the limits are told apart by their integer parts
    have htrunc := (Instant.isInt_ofInt_of_limit hin.2).truncate?
    rw [hsame, (Instant.isInt_ofInt_of_limit hlimit).truncate?] at htrunc
    exact ⟨hin.1, Option.some.inj htrunc⟩
  · exact absurd hsame.symm (ofInt_ne_nan t)

/-- The day after the last day of the calendar, as a day of its last month. -/
def dayPastEnd : WholeFields := ⟨Instant.lastYear, 11, 32, 0, 0, 0, 0⟩

/-- The day past the end is made, and is no date; a leap day is one. -/
theorem dayPastEnd_is_no_date :
    Gives "createFromUTC" [.f64 (.ofInt Instant.lastYear), .f64 (.ofInt 11), .f64 (.ofInt 32),
        .f64 (.ofInt 0), .f64 (.ofInt 0), .f64 (.ofInt 0)] (.ofInt 8210266876800000) ∧
      NoDate (.ofInt 8210266876800000) ∧ IsDate (.ofInt 1709210096000) := by
  have hmade : ∀ n : WholeFields, n.Bounded → n.millis = 0 → n.InCalendar →
      n.total.natAbs ≤ Instant.limit →
      Gives "createFromUTC" [.f64 (.ofInt n.year), .f64 (.ofInt n.month), .f64 (.ofInt n.day),
        .f64 (.ofInt n.hours), .f64 (.ofInt n.minutes), .f64 (.ofInt n.seconds)] (.ofInt n.total) ∧
      (IsDate (.ofInt n.total) ↔ Instant.InRange n.total) ∧
      (NoDate (.ofInt n.total) ↔ ¬ Instant.InRange n.total) := by
    intro n hn hmillis hin hlimit
    have hf := DateFields.truncates_toFields hn
    have hcomposes : Composes "createFromUTC" _ n.toFields :=
      .create (congrArg ofInt hmillis : (ofInt n.millis : Double) = ofInt 0)
    have hgives := gives_of_composes hcomposes
    rw [hf.compose_utc hn, if_pos ⟨hin, hlimit⟩] at hgives
    have hcall := hgives (.ofDepth 0) [] { context := { hasher := .ofSeed 0 } }
    obtain ⟨t, -, -, hdate, hnone, htotal⟩ :=
      dates_are_closed_in_range .create hcall (ofInt_ne_nan _)
    rw [(htotal _ n hcomposes hf hn).2] at hdate hnone
    exact ⟨hgives, hdate, hnone⟩
  have hlate := hmade dayPastEnd ⟨by decide, by decide, by decide, by decide, by decide, by decide,
    by decide⟩ rfl (by decide) (by decide)
  have hleap := hmade DateFields.leapNoon ⟨by decide, by decide, by decide, by decide, by decide,
    by decide, by decide⟩ rfl (by decide) (by decide)
  have hlate' : dayPastEnd.total = 8210266876800000 := by decide
  have hleap' : DateFields.leapNoon.total = 1709210096000 := by decide
  rw [hlate'] at hlate
  rw [hleap'] at hleap
  exact ⟨hlate.1, hlate.2.2.2 (by decide), hleap.2.1.2 (by decide)⟩

end BridgeM

end GuestBridge
