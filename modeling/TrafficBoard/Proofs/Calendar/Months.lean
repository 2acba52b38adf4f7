import Mathlib
import TrafficBoard.Calendar.Instant
import TrafficBoard.Proofs.Calendar.Dates

namespace TrafficBoard.Calendar

/-!
# Calendar months — where an instant goes when it is moved by them

* `Date.On` says that a date is that of an instant, `Date.MonthsLater` which date comes some months
  after a date: the same day of the month there, or a day early in the month after that where the
  month is too short;
* `Date.exists_on` and `Date.exists_monthsLater` say that there always are such dates;
* `monthsLater_eq` says that an instant is moved to that date and keeps its time of the day, and
  just when it is refused;
* `sign_of_monthsLater` says that it is moved in the direction of the months.
-/

/-! ### Instants and dates -/

section Days

variable {day time : Int}

/-- The day of a time of a day. -/
theorem dayOf_ofDayAndTime (h : 0 ≤ time ∧ time < dayMs) : dayOf (ofDayAndTime day time) = day := by
  simp only [dayOf, ofDayAndTime, dayMs] at h ⊢
  omega

/-- The time of a time of a day. -/
theorem timeOfDay_ofDayAndTime (h : 0 ≤ time ∧ time < dayMs) :
    timeOfDay (ofDayAndTime day time) = time := by
  simp only [timeOfDay, ofDayAndTime, dayMs] at h ⊢
  omega

/-- The time of a day is shorter than the day. -/
theorem timeOfDay_bounds (ms : Int) : 0 ≤ timeOfDay ms ∧ timeOfDay ms < dayMs := by
  simp only [timeOfDay, dayMs]
  omega

end Days

namespace Date

/-- A date is that of an instant. -/
structure On (d : Date) (ms : Int) : Prop where
  valid : d.Valid
  day : d.dayNumber = dayOf ms

/-- A date in one of the years of the calendar. -/
def Supported (d : Date) : Prop :=
  firstYear ≤ d.year ∧ d.year ≤ lastYear

instance (d : Date) : Decidable d.Supported := inferInstanceAs (Decidable (_ ∧ _))

/-- Every instant has a date. -/
theorem exists_on (ms : Int) : ∃ d : Date, d.On ms :=
  ⟨ofDayNumber (dayOf ms), valid_ofDayNumber _, dayNumber_ofDayNumber _⟩

/-- The date of an instant is the one that is found for its day. -/
theorem On.ofDayNumber_eq {d : Date} {ms : Int} (h : d.On ms) : ofDayNumber (dayOf ms) = d := by
  rw [← h.day, ofDayNumber_dayNumber h.valid]

/-- The days of the calendar are those of its years. -/
theorem supportedDay_iff {d : Date} (h : d.Valid) : SupportedDay d.dayNumber ↔ d.Supported := by
  obtain ⟨hlow, hhigh⟩ := dayNumber_bounds h
  -- Years start in order, so a day is compared with one by comparing the years.
  have hfirst : daysBeforeYear firstYear < daysBeforeYear (d.year + 1) ↔ firstYear ≤ d.year := by
    rw [strictMono_daysBeforeYear.lt_iff_lt, Int.lt_add_one_iff]
  have hlast : daysBeforeYear d.year < daysBeforeYear (lastYear + 1) ↔ d.year ≤ lastYear := by
    rw [strictMono_daysBeforeYear.lt_iff_lt, Int.lt_add_one_iff]
  have hfirst' : daysBeforeYear firstYear ≤ daysBeforeYear d.year ↔ firstYear ≤ d.year :=
    strictMono_daysBeforeYear.le_iff_le
  have hlast' : daysBeforeYear (d.year + 1) ≤ daysBeforeYear (lastYear + 1) ↔
      d.year ≤ lastYear := by
    rw [strictMono_daysBeforeYear.le_iff_le, Int.add_le_add_iff_right]
  unfold SupportedDay Supported
  constructor
  · rintro ⟨h1, h2⟩
    exact ⟨hfirst.1 (by omega), hlast.1 (by omega)⟩
  · rintro ⟨h1, h2⟩
    have := hfirst'.2 h1
    have := hlast'.2 h2
    constructor
    all_goals omega

/-! ### Dates some months later -/

/-- `e` is the date that comes `months` months after `d`, and `first` the first day of the month
that the months lead to. -/
structure MonthsLater (months : Int) (d first e : Date) : Prop where
  first_valid : first.Valid
  first_day : first.day = 1
  first_month : first.monthIndex = d.monthIndex + months
  valid : e.Valid
  /-- A day that the month has is kept. -/
  kept : d.day ≤ monthLength first.year first.month →
    e.monthIndex = first.monthIndex ∧ e.day = d.day
  /-- A day past its end runs on into the next month. -/
  runs_on : monthLength first.year first.month < d.day →
    e.monthIndex = first.monthIndex + 1 ∧ e.day = d.day - monthLength first.year first.month

section MonthsLater

variable {months : Int} {d first e : Date}

/-- Some date comes any number of months after a date. -/
theorem exists_monthsLater (months : Int) (h : d.Valid) :
    ∃ first e, MonthsLater months d first e := by
  let first := firstOfMonth (d.monthIndex + months)
  have hvalid : first.Valid := valid_firstOfMonth _
  have hindex : first.monthIndex = d.monthIndex + months := monthIndex_firstOfMonth _
  have hfirst : firstOfMonth first.monthIndex = first := by rw [hindex]
  by_cases hfits : d.day ≤ monthLength first.year first.month
  · refine ⟨first, { first with day := d.day }, hvalid, rfl, hindex, ?_, fun _ => ⟨rfl, rfl⟩, ?_⟩
    · exact ⟨hvalid.1, hvalid.2.1, h.2.2.1, hfits⟩
    · exact fun hlong => absurd hfits (not_le.2 hlong)
  · -- No month is longer than 31 days or shorter than 28, so three days are left at most.
    let next := firstOfMonth (first.monthIndex + 1)
    have hnext : next.Valid := valid_firstOfMonth _
    have hlong := monthLength_bounds d.year ⟨h.1, h.2.1⟩
    have hshort := monthLength_bounds first.year ⟨hvalid.1, hvalid.2.1⟩
    have hroom := monthLength_bounds next.year ⟨hnext.1, hnext.2.1⟩
    have hday := h.2.2.2
    refine ⟨first, { next with day := d.day - monthLength first.year first.month }, hvalid, rfl,
      hindex, ⟨hnext.1, hnext.2.1, ?_, ?_⟩, fun hkept => absurd hkept hfits, fun _ => ⟨?_, rfl⟩⟩
    · show 1 ≤ d.day - monthLength first.year first.month
      omega
    · show d.day - monthLength first.year first.month ≤ monthLength next.year next.month
      omega
    · exact monthIndex_firstOfMonth _

namespace MonthsLater

/-- The month that the months lead to is the one with that count. -/
theorem first_eq (h : MonthsLater months d first e) :
    first = firstOfMonth (d.monthIndex + months) := by
  rw [← h.first_month, firstOfMonth_monthIndex h.first_valid, ← h.first_day]

/-- **As many days as before the date** come before the later date in the month that the months lead
to, whether or not the day runs on. -/
theorem dayNumber_eq (h : MonthsLater months d first e) :
    e.dayNumber = first.dayNumber + (d.day - 1 : Nat) := by
  have hfirst : firstOfMonth first.monthIndex = first := by rw [h.first_month, ← h.first_eq]
  rw [dayNumber_eq_firstOfMonth_add h.valid]
  rcases Nat.lt_or_ge (monthLength first.year first.month) d.day with hlong | hfits
  · obtain ⟨hmonth, hday⟩ := h.runs_on hlong
    rw [hmonth, hday, dayNumber_firstOfMonth_succ, hfirst]
    omega
  · obtain ⟨hmonth, hday⟩ := h.kept hfits
    rw [hmonth, hday, hfirst]

end MonthsLater

end MonthsLater

end Date

/-! ### Instants some months later -/

section Instants

variable {months ms later : Int} {d first e : Date}

/-- **An instant is moved to the date some months later** at the same time of the day. It is refused
just when its date, the first day of the month or the later date is outside the calendar. -/
theorem monthsLater_eq (hd : d.On ms) (h : Date.MonthsLater months d first e) :
    monthsLater months ms =
      if d.Supported ∧ first.Supported ∧ e.Supported then
        some (ofDayAndTime e.dayNumber (timeOfDay ms))
      else none := by
  have hfirst : SupportedDay (Date.firstOfMonth (d.monthIndex + months)).dayNumber ↔
      first.Supported := by
    rw [← h.first_eq, Date.supportedDay_iff h.first_valid]
  have hlater : (Date.firstOfMonth (d.monthIndex + months)).dayNumber + (d.day - 1 : Nat) =
      e.dayNumber := by
    rw [← h.first_eq, h.dayNumber_eq]
  have hday : Supported ms ↔ d.Supported := by
    rw [Supported, ← hd.day, Date.supportedDay_iff hd.valid]
  unfold monthsLater
  simp only [hd.ofDayNumber_eq, hlater, hfirst, hday, Date.supportedDay_iff h.valid, ite_and]

/-- **An instant is moved in the direction of the months.** -/
theorem sign_of_monthsLater (h : monthsLater months ms = some later) :
    (later - ms).sign = months.sign := by
  obtain ⟨d, hd⟩ := Date.exists_on ms
  obtain ⟨first, e, he⟩ := Date.exists_monthsLater months hd.valid
  rw [monthsLater_eq hd he] at h
  obtain ⟨-, hlater⟩ := Option.ite_none_right_eq_some.1 h
  -- Both dates are as far from the first days of their months, and those are in order.
  have hmoved : later - ms = ((Date.firstOfMonth (d.monthIndex + months)).dayNumber -
      (Date.firstOfMonth d.monthIndex).dayNumber) * dayMs := by
    have hms := ofDayAndTime_dayOf ms
    rw [← Option.some.inj hlater, he.dayNumber_eq, he.first_eq]
    rw [← hd.day, Date.dayNumber_eq_firstOfMonth_add hd.valid] at hms
    simp only [ofDayAndTime] at hms ⊢
    linarith
  have hday : dayMs.sign = 1 := rfl
  rw [hmoved, Int.sign_mul, hday, mul_one]
  rcases lt_trichotomy months 0 with hback | rfl | hon
  · have := Date.strictMono_firstOfMonth (show d.monthIndex + months < d.monthIndex by omega)
    rw [Int.sign_eq_neg_one_of_neg hback, Int.sign_eq_neg_one_of_neg (sub_neg.2 this)]
  · rw [add_zero, sub_self]
  · have := Date.strictMono_firstOfMonth (show d.monthIndex < d.monthIndex + months by omega)
    rw [Int.sign_eq_one_of_pos hon, Int.sign_eq_one_of_pos (sub_pos.2 this)]

end Instants

end TrafficBoard.Calendar
