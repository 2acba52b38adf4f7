import Mathlib
import TrafficBoard.Calendar.Date

namespace TrafficBoard.Calendar

open scoped BigOperators

/-!
# Counted days — the day number of a date, year by year and month by month

* `Date.countedDays` adds up the lengths of the years and months before a date;
* `daysBeforeYear_eq_sum` and `daysBeforeMonth_eq_sum` say that the two parts of a day number are
  such sums;
* `Date.dayNumber_eq_countedDays` is the day number of a date from year zero on.
-/

/-! ### Years -/

/-- The length of a year. -/
def yearLength (year : Int) : Nat :=
  if isLeap year then 366 else 365

/-- **The days before a year** are those of the years from year zero on. -/
theorem daysBeforeYear_eq_sum (year : Nat) :
    daysBeforeYear year = ∑ y ∈ Finset.range year, (yearLength y : Int) := by
  induction year with
  | zero => exact daysBeforeYear_zero.1
  | succ year ih =>
    have hsucc := daysBeforeYear_succ year
    rw [Finset.sum_range_succ, ← ih]
    push_cast
    rw [hsucc]
    unfold yearLength
    by_cases hleap : isLeap year = true
    · rw [if_pos hleap, if_pos hleap]
      push_cast
      ring
    · rw [if_neg hleap, if_neg hleap]
      push_cast
      ring

/-! ### Months -/

/-- Adding up the front of a list of lengths. -/
theorem foldr_take_eq_sum (lengths : List Nat) (count : Nat) :
    (lengths.take count).foldr (· + ·) 0 = ∑ i ∈ Finset.range count, lengths.getD i 0 := by
  induction lengths generalizing count with
  | nil => simp
  | cons length lengths ih =>
    cases count with
    | zero => rfl
    | succ count =>
      rw [Finset.sum_range_succ', List.take_succ_cons, List.foldr_cons, ih, add_comm]
      rfl

/-- **The days before a month** are those of the months of the year before it. -/
theorem daysBeforeMonth_eq_sum (year : Int) (month : Nat) :
    daysBeforeMonth year month = ∑ m ∈ Finset.range (month - 1), monthLength year (m + 1) :=
  foldr_take_eq_sum (monthLengths year) (month - 1)

/-- The months of a year make up its length. -/
theorem sum_monthLength (year : Int) :
    ∑ m ∈ Finset.range 12, monthLength year (m + 1) = yearLength year := by
  rw [show 12 = 13 - 1 from rfl, ← daysBeforeMonth_eq_sum]
  unfold daysBeforeMonth monthLengths yearLength
  by_cases hleap : isLeap year = true
  · rw [if_pos hleap, if_pos hleap]
    rfl
  · rw [if_neg hleap, if_neg hleap]
    rfl

/-! ### Dates -/

namespace Date

/-- The days from the first day of year zero to a date, counted year by year and month by month. -/
def countedDays (d : Date) : Nat :=
  ∑ y ∈ Finset.range d.year.toNat, yearLength y +
    ∑ m ∈ Finset.range (d.month - 1), monthLength d.year (m + 1) + (d.day - 1)

/-- The first day of 1970. -/
def unixEpoch : Date :=
  ⟨1970, 1, 1⟩

/-- **The day number of a date** is its count of days from the first day of 1970. -/
theorem dayNumber_eq_countedDays {d : Date} (h : 0 ≤ d.year) :
    d.dayNumber = (d.countedDays : Int) - unixEpoch.countedDays := by
  have hcounted (e : Date) (he : 0 ≤ e.year) : (e.countedDays : Int) =
      daysBeforeYear e.year + daysBeforeMonth e.year e.month + (e.day - 1 : Nat) := by
    obtain ⟨year, hyear⟩ := Int.eq_ofNat_of_zero_le he
    rw [countedDays, hyear, daysBeforeYear_eq_sum, daysBeforeMonth_eq_sum]
    push_cast
    rfl
  have hepoch : (unixEpoch.countedDays : Int) = epoch := by
    rw [hcounted unixEpoch (by decide)]
    decide
  rw [hcounted d h, hepoch, dayNumber]

end Date

end TrafficBoard.Calendar
