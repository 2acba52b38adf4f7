import Mathlib
import TrafficBoard.Calendar.Date
import TrafficBoard.Proofs.Calendar.Days

namespace TrafficBoard.Calendar

/-!
# Dates and their day numbers — each is found from the other

* `yearOf_bounds` says that the year that is found for a day is the one the day lies in;
* `Date.ofDayNumber_dayNumber` says that the date that is found for a day number is the date that
  has it, and `Date.valid_ofDayNumber` that there always is one;
* `Date.dayNumber_firstOfMonth_succ` says that a month is as long as its length,
  `Date.strictMono_firstOfMonth` that the first days of the months are in order.

The year is found by an estimate that is off by one at most. Everything else is stated for all
integers, so it holds before year zero as it does after.
-/

/-! ### Years -/

/-- Years start in order. -/
theorem strictMono_daysBeforeYear : StrictMono daysBeforeYear := by
  refine strictMono_int_of_lt_succ fun year => ?_
  rw [daysBeforeYear_succ]
  split
  all_goals omega

/-- The days of a year are as many as its length. -/
theorem daysBeforeYear_add_one (year : Int) :
    daysBeforeYear (year + 1) = daysBeforeYear year + yearLength year := by
  rw [daysBeforeYear_succ, yearLength]
  split
  all_goals
    push_cast
    omega

/-- **The year of a day** is the one that the day lies in. -/
theorem yearOf_bounds (days : Int) :
    daysBeforeYear (yearOf days) ≤ days ∧ days < daysBeforeYear (yearOf days + 1) := by
  -- A year is 146097 / 400 days long on average, and none starts two days off that.
  have hestimate : daysBeforeYear (400 * days / 146097 - 1) ≤ days ∧
      days < daysBeforeYear (400 * days / 146097 + 2) := by
    unfold daysBeforeYear
    omega
  unfold yearOf
  dsimp only
  split
  · rename_i hbefore
    exact ⟨hestimate.1, by rwa [Int.sub_add_cancel]⟩
  · split
    · rename_i hafter
      exact ⟨hafter, by rw [Int.add_assoc]; exact hestimate.2⟩
    · omega

/-- A day lies in one year only. -/
theorem yearOf_eq {year days : Int} (hlow : daysBeforeYear year ≤ days)
    (hhigh : days < daysBeforeYear (year + 1)) : yearOf days = year := by
  obtain ⟨hlow', hhigh'⟩ := yearOf_bounds days
  have h1 := strictMono_daysBeforeYear.lt_iff_lt.1 (hlow.trans_lt hhigh')
  have h2 := strictMono_daysBeforeYear.lt_iff_lt.1 (hlow'.trans_lt hhigh)
  omega

/-! ### Months -/

/-- A month has from 28 to 31 days. -/
theorem monthLength_bounds (year : Int) {month : Nat} (h : 1 ≤ month ∧ month ≤ 12) :
    28 ≤ monthLength year month ∧ monthLength year month ≤ 31 := by
  obtain ⟨hlow, hhigh⟩ := h
  unfold monthLength monthLengths
  interval_cases month
  all_goals simp
  -- Only the length of the second month depends on the year.
  split
  all_goals omega

/-- The days before a month are those before the month before it, and that one's. -/
theorem daysBeforeMonth_succ (year : Int) {month : Nat} (h : 1 ≤ month) :
    daysBeforeMonth year (month + 1) = daysBeforeMonth year month + monthLength year month := by
  obtain ⟨m, rfl⟩ := Nat.exists_eq_add_of_le' h
  rw [daysBeforeMonth_eq_sum, daysBeforeMonth_eq_sum, Nat.add_sub_cancel, Nat.add_sub_cancel,
    Finset.sum_range_succ]

/-- No days come before the first month. -/
theorem daysBeforeMonth_one (year : Int) : daysBeforeMonth year 1 = 0 := rfl

/-- The twelve months make up the year. -/
theorem daysBeforeMonth_thirteen (year : Int) : daysBeforeMonth year 13 = yearLength year := by
  rw [daysBeforeMonth_eq_sum, ← sum_monthLength]

/-- A month is over before the year is. -/
theorem daysBeforeMonth_add_le (year : Int) {month : Nat} (h : 1 ≤ month ∧ month ≤ 12) :
    daysBeforeMonth year month + monthLength year month ≤ yearLength year := by
  obtain ⟨hlow, hhigh⟩ := h
  rw [← daysBeforeMonth_succ year hlow, ← daysBeforeMonth_thirteen, daysBeforeMonth_eq_sum,
    daysBeforeMonth_eq_sum]
  exact Finset.sum_le_sum_of_subset (Finset.range_mono (by omega))

/-- The place of a day among lengths that are laid out one after the other. -/
theorem locate_take {lengths : List Nat} {count rest : Nat} (month : Nat)
    (hrest : rest < lengths.getD count 0) :
    locate lengths month ((lengths.take count).foldr (· + ·) 0 + rest) =
      (month + count, rest + 1) := by
  induction lengths generalizing count month with
  | nil => simp at hrest
  | cons length lengths ih =>
    cases count with
    | zero =>
      have hfirst : rest < length := hrest
      simp [locate, hfirst]
    | succ count =>
      have hpast : ¬ length + (lengths.take count).foldr (· + ·) 0 + rest < length := by omega
      rw [List.take_succ_cons, List.foldr_cons, locate, if_neg hpast, Nat.add_assoc,
        Nat.add_sub_cancel_left, ih (month + 1) hrest, Nat.add_right_comm, Nat.add_assoc]

/-- Every day before the end of the year lies in a month. -/
theorem exists_month (year : Int) {n : Nat} (h : n < yearLength year) :
    ∃ month, (1 ≤ month ∧ month ≤ 12) ∧ ∃ day < monthLength year month,
      n = daysBeforeMonth year month + day := by
  -- The month is the last one that does not start after the day.
  let starts (m : Nat) : Prop := daysBeforeMonth year m ≤ n
  let month := Nat.findGreatest starts 12
  have hstart : starts 1 := Nat.zero_le n
  have hlow : 1 ≤ month := Nat.le_findGreatest (by omega) hstart
  have hhigh : month ≤ 12 := Nat.findGreatest_le 12
  have hbefore : daysBeforeMonth year month ≤ n := Nat.findGreatest_spec (by omega) hstart
  have hafter : n < daysBeforeMonth year (month + 1) := by
    by_cases hlast : month = 12
    · rw [hlast, daysBeforeMonth_thirteen]
      exact h
    · have hnot : ¬ starts (month + 1) :=
        Nat.findGreatest_is_greatest (Nat.lt_succ_self month) (by omega)
      exact not_le.1 hnot
  rw [daysBeforeMonth_succ year hlow] at hafter
  exact ⟨month, ⟨hlow, hhigh⟩, n - daysBeforeMonth year month, by omega, by omega⟩

/-! ### Dates -/

namespace Date

/-- A date lies in its year. -/
theorem dayNumber_bounds {d : Date} (h : d.Valid) :
    daysBeforeYear d.year ≤ d.dayNumber + epoch ∧
      d.dayNumber + epoch < daysBeforeYear (d.year + 1) := by
  obtain ⟨hlow, hhigh, hday, hlength⟩ := h
  have hend := daysBeforeMonth_add_le d.year ⟨hlow, hhigh⟩
  rw [daysBeforeYear_add_one, dayNumber]
  omega

/-- **The date of a day number** is the only one that has it. -/
theorem ofDayNumber_dayNumber {d : Date} (h : d.Valid) : ofDayNumber d.dayNumber = d := by
  obtain ⟨hlow, hhigh⟩ := dayNumber_bounds h
  obtain ⟨hmonth, -, hday, hlength⟩ := h
  have hyear : yearOf (d.dayNumber + epoch) = d.year := yearOf_eq hlow hhigh
  have hrest : (d.dayNumber + epoch - daysBeforeYear d.year).toNat =
      ((monthLengths d.year).take (d.month - 1)).foldr (· + ·) 0 + (d.day - 1) := by
    rw [← daysBeforeMonth, dayNumber]
    omega
  have hin : d.day - 1 < (monthLengths d.year).getD (d.month - 1) 0 := by
    rw [← monthLength]
    omega
  unfold ofDayNumber
  simp only [hyear, hrest, locate_take 1 hin]
  rw [Nat.add_sub_cancel' hmonth, Nat.sub_add_cancel hday]

/-- Every number is the day number of a date. -/
theorem exists_dayNumber (number : Int) : ∃ d : Date, d.Valid ∧ d.dayNumber = number := by
  -- The year is the one of the day, and what is left of the days lies in one of its months.
  obtain ⟨hlow, hhigh⟩ := yearOf_bounds (number + epoch)
  rw [daysBeforeYear_add_one] at hhigh
  obtain ⟨month, hmonth, day, hday, hrest⟩ := exists_month (yearOf (number + epoch))
    (n := (number + epoch - daysBeforeYear (yearOf (number + epoch))).toNat) (by omega)
  refine ⟨⟨yearOf (number + epoch), month, day + 1⟩, ⟨hmonth.1, hmonth.2, ?_, ?_⟩, ?_⟩
  · exact Nat.le_add_left 1 day
  · exact hday
  · simp only [dayNumber, Nat.add_sub_cancel]
    omega

/-- The date of a day number exists. -/
theorem valid_ofDayNumber (number : Int) : (ofDayNumber number).Valid := by
  obtain ⟨d, hvalid, rfl⟩ := exists_dayNumber number
  rwa [ofDayNumber_dayNumber hvalid]

/-- The date of a day number has it. -/
theorem dayNumber_ofDayNumber (number : Int) : (ofDayNumber number).dayNumber = number := by
  obtain ⟨d, hvalid, rfl⟩ := exists_dayNumber number
  rw [ofDayNumber_dayNumber hvalid]

/-! ### First days of months -/

/-- The first day of a month exists. -/
theorem valid_firstOfMonth (index : Int) : (firstOfMonth index).Valid := by
  have hmonth : 1 ≤ (firstOfMonth index).month ∧ (firstOfMonth index).month ≤ 12 := by
    simp only [firstOfMonth]
    omega
  have := monthLength_bounds (firstOfMonth index).year hmonth
  exact ⟨hmonth.1, hmonth.2, le_rfl, by show 1 ≤ _; omega⟩

/-- The first day of a month lies in it. -/
@[simp] theorem monthIndex_firstOfMonth (index : Int) :
    (firstOfMonth index).monthIndex = index := by
  simp only [monthIndex, firstOfMonth]
  omega

/-- The first day of the month of a date. -/
theorem firstOfMonth_monthIndex {d : Date} (h : d.Valid) :
    firstOfMonth d.monthIndex = { d with day := 1 } := by
  obtain ⟨hlow, hhigh, -⟩ := h
  simp only [firstOfMonth, monthIndex, mk.injEq, and_true]
  omega

/-- A date follows the first day of its month. -/
theorem dayNumber_eq_firstOfMonth_add {d : Date} (h : d.Valid) :
    d.dayNumber = (firstOfMonth d.monthIndex).dayNumber + (d.day - 1 : Nat) := by
  rw [firstOfMonth_monthIndex h]
  simp only [dayNumber]
  omega

/-- **A month is as long as its length:** that many days after its first day comes that of the next
month. -/
theorem dayNumber_firstOfMonth_succ (index : Int) :
    (firstOfMonth (index + 1)).dayNumber = (firstOfMonth index).dayNumber +
      monthLength (firstOfMonth index).year (firstOfMonth index).month := by
  have hmonth : 1 ≤ (firstOfMonth index).month := (valid_firstOfMonth index).1
  have hsucc := daysBeforeMonth_succ (firstOfMonth index).year hmonth
  by_cases hlast : index % 12 = 11
  · -- December runs on into the next year.
    have hnext : firstOfMonth (index + 1) = ⟨(firstOfMonth index).year + 1, 1, 1⟩ := by
      simp only [firstOfMonth, mk.injEq, and_true]
      omega
    have htwelve : (firstOfMonth index).month = 12 := by
      simp only [firstOfMonth, hlast]
      rfl
    rw [htwelve, daysBeforeMonth_thirteen] at hsucc
    rw [hnext, htwelve]
    simp only [dayNumber, daysBeforeMonth_one, daysBeforeYear_add_one, htwelve]
    simp only [firstOfMonth] at hsucc ⊢
    omega
  · have hnext : firstOfMonth (index + 1) =
        ⟨(firstOfMonth index).year, (firstOfMonth index).month + 1, 1⟩ := by
      simp only [firstOfMonth, mk.injEq, and_true]
      omega
    rw [hnext]
    simp only [dayNumber, hsucc]
    simp only [firstOfMonth]
    omega

/-- **The first days of the months** are in order. -/
theorem strictMono_firstOfMonth : StrictMono fun index => (firstOfMonth index).dayNumber := by
  refine strictMono_int_of_lt_succ fun index => ?_
  obtain ⟨hlow, hhigh, -⟩ := valid_firstOfMonth index
  have := monthLength_bounds (firstOfMonth index).year ⟨hlow, hhigh⟩
  rw [dayNumber_firstOfMonth_succ]
  omega

end Date

end TrafficBoard.Calendar
