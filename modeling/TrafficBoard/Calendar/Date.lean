namespace TrafficBoard.Calendar

/-!
# Dates — the proleptic Gregorian calendar and the count of its days

* `Date` is a year, a month and a day of the month; `Date.Valid` says that the day exists;
* `Date.dayNumber` counts the days from 1970-01-01, `Date.ofDayNumber` finds the date of a count;
* `Date.monthsLater` moves a date by calendar months.

Years have a year zero and run below it. Days before a year are counted by the three rules of the
leap year at once, with the quotients rounded up.
-/

/-- A date of the calendar. -/
structure Date where
  year : Int
  month : Nat
  day : Nat
  deriving DecidableEq, Repr

/-- Whether a year has a twenty-ninth of February. -/
def isLeap (year : Int) : Bool :=
  year % 4 = 0 && (year % 100 ≠ 0 || year % 400 = 0)

/-- The lengths of the twelve months. -/
def monthLengths (year : Int) : List Nat :=
  [31, if isLeap year then 29 else 28, 31, 30, 31, 30, 31, 31, 30, 31, 30, 31]

/-- The length of a month counted from one. -/
def monthLength (year : Int) (month : Nat) : Nat :=
  (monthLengths year).getD (month - 1) 0

/-- The days from the first day of year zero to that of a year. -/
def daysBeforeYear (year : Int) : Int :=
  365 * year + (year + 3) / 4 - (year + 99) / 100 + (year + 399) / 400

/-- The days of a year before the first of a month. -/
def daysBeforeMonth (year : Int) (month : Nat) : Nat :=
  ((monthLengths year).take (month - 1)).foldr (· + ·) 0

/-- The days from the first day of year zero to 1970-01-01. -/
def epoch : Int := 719528

/-- A year has 365 days, and one more in a leap year. -/
theorem daysBeforeYear_succ (year : Int) :
    daysBeforeYear (year + 1) = daysBeforeYear year + 365 + if isLeap year then 1 else 0 := by
  simp only [daysBeforeYear, isLeap]
  by_cases h4 : year % 4 = 0 <;> by_cases h100 : year % 100 = 0 <;>
    by_cases h400 : year % 400 = 0 <;> simp [h4, h100, h400] <;> omega

/-- Year zero starts the count and 1970 the epoch. -/
theorem daysBeforeYear_zero : daysBeforeYear 0 = 0 ∧ daysBeforeYear 1970 = epoch := by decide

namespace Date

/-- A day that the calendar has. -/
def Valid (d : Date) : Prop :=
  1 ≤ d.month ∧ d.month ≤ 12 ∧ 1 ≤ d.day ∧ d.day ≤ monthLength d.year d.month

instance (d : Date) : Decidable d.Valid := inferInstanceAs (Decidable (_ ∧ _))

/-- The days from 1970-01-01 to a date. -/
def dayNumber (d : Date) : Int :=
  daysBeforeYear d.year + daysBeforeMonth d.year d.month + (d.day - 1 : Nat) - epoch

end Date

/-- The year of a day counted from year zero. -/
def yearOf (days : Int) : Int :=
  let estimate := 400 * days / 146097
  if days < daysBeforeYear estimate then estimate - 1
  else if daysBeforeYear (estimate + 1) ≤ days then estimate + 1
  else estimate

/-- The month and the day of the month of a day counted from the start of `month`. -/
def locate : List Nat → Nat → Nat → Nat × Nat
  | [], month, rest => (month, rest + 1)
  | length :: lengths, month, rest =>
    if rest < length then (month, rest + 1) else locate lengths (month + 1) (rest - length)

namespace Date

/-- The date of a day counted from 1970-01-01. -/
def ofDayNumber (number : Int) : Date :=
  let days := number + epoch
  let year := yearOf days
  let (month, day) := locate (monthLengths year) 1 (days - daysBeforeYear year).toNat
  { year, month, day }

/-- The year and month, as the count of months since year zero. -/
def monthIndex (d : Date) : Int :=
  d.year * 12 + (d.month - 1 : Nat)

/-- The first day of the month with a given count. -/
def firstOfMonth (index : Int) : Date :=
  { year := index / 12, month := (index % 12).toNat + 1, day := 1 }

example : (ofDayNumber 0 = ⟨1970, 1, 1⟩) ∧ (ofDayNumber 19782 = ⟨2024, 2, 29⟩) ∧
    (ofDayNumber (-719529) = ⟨-1, 12, 31⟩) := by decide
example : dayNumber ⟨2024, 2, 29⟩ = 19782 ∧ dayNumber ⟨-1, 12, 31⟩ = -719529 := by decide

end Date

end TrafficBoard.Calendar
