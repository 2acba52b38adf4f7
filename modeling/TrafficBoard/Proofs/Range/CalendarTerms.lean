import Mathlib
import TrafficBoard.Proofs.Calendar.Months
import TrafficBoard.Proofs.Range.FixedTerms

namespace TrafficBoard

open Calendar

/-!
# Terms of calendar months — the same day of another month, or what runs on from it

* `Term.shiftMonths` is the number of months by which a term in months or years moves an instant;
* `Term.Reaches` says that the number is a word and that the dates on the way are in the calendar;
* `Term.apply_of_reaches` says that the instant is moved to the date so many months later, at the
  same time of the day, and `Term.apply_of_not_reaches` that the term is refused otherwise;
* `TimeExpr.resolve_calendar_term` is the same for an expression.
-/

/-- A unit is some calendar months, if it is any. -/
theorem TimeUnit.months_pos (u : TimeUnit) : 0 < u.months := by
  cases u
  all_goals decide

namespace Term

/-- The calendar months by which a term moves an instant, with its sign. -/
def shiftMonths (t : Term) : Int :=
  t.signed * t.unit.months

/-- The months of a term are a signed word, and the date of an instant, the first day of the month
that they lead to and the date in the end are in the calendar. -/
structure Reaches (t : Term) (d first e : Date) : Prop where
  months : Number.InWord (t.amount * t.unit.months)
  start : d.Supported
  first : first.Supported
  last : e.Supported

section Apply

variable {t : Term} {ms : Int} {d first e : Date}

/-- A term of no fixed length moves an instant by calendar months. -/
theorem apply_of_not_isFixed (h : ¬ t.unit.IsFixed) (ms : Int) :
    t.apply ms =
      match monthsLater t.shiftMonths ms with
      | some later => .ok later
      | none => .error .outOfRange := by
  have hunit : t.unit.fixedMs = none := by
    cases hu : t.unit
    case year => rfl
    case month => rfl
    all_goals exact absurd (by rw [hu]; decide) h
  rw [apply, hunit]
  rfl

/-- So many months that their number is no word lead out of the calendar. -/
theorem not_supported_of_not_inWord (h : Date.MonthsLater t.shiftMonths d first e)
    (hvalid : d.Valid) (hmonths : ¬ Number.InWord (t.amount * t.unit.months))
    (hstart : d.Supported) : ¬ first.Supported := by
  have hpos : 0 ≤ (t.amount : Int) * t.unit.months :=
    mul_nonneg (Int.natCast_nonneg _) t.unit.months_pos.le
  have hlarge : Number.wordMax < t.amount * t.unit.months := by
    by_contra hsmall
    exact hmonths ⟨le_trans (by decide) hpos, not_lt.1 hsmall⟩
  have hshift : t.shiftMonths = t.amount * t.unit.months ∨
      t.shiftMonths = -(t.amount * t.unit.months) := by
    unfold shiftMonths signed
    split
    · exact .inr (neg_mul _ _)
    · exact .inl rfl
  -- A calendar has fewer months than there are words.
  obtain ⟨hlow, hhigh⟩ := hstart
  obtain ⟨-, hmonth, -⟩ := hvalid
  obtain ⟨-, hmonth', -⟩ := h.first_valid
  have hindex := h.first_month
  rintro ⟨hlow', hhigh'⟩
  simp only [Date.monthIndex, firstYear, lastYear, Number.wordMax] at *
  omega

/-- **The date that a term reaches** is that of the moved instant, and the time of the day is
kept. -/
theorem apply_of_reaches (hunit : ¬ t.unit.IsFixed) (hd : d.On ms)
    (h : Date.MonthsLater t.shiftMonths d first e) (hreaches : t.Reaches d first e) :
    t.apply ms = .ok (ofDayAndTime e.dayNumber (timeOfDay ms)) := by
  rw [apply_of_not_isFixed hunit, monthsLater_eq hd h,
    if_pos ⟨hreaches.start, hreaches.first, hreaches.last⟩]

/-- **A date that a term does not reach** makes it fail. -/
theorem apply_of_not_reaches (hunit : ¬ t.unit.IsFixed) (hd : d.On ms)
    (h : Date.MonthsLater t.shiftMonths d first e) (hreaches : ¬ t.Reaches d first e) :
    t.apply ms = .error .outOfRange := by
  have hnot : ¬ (d.Supported ∧ first.Supported ∧ e.Supported) := by
    rintro ⟨hstart, hfirst, hlast⟩
    by_cases hmonths : Number.InWord (t.amount * t.unit.months)
    · exact hreaches ⟨hmonths, hstart, hfirst, hlast⟩
    · exact not_supported_of_not_inWord h hd.valid hmonths hstart hfirst
  rw [apply_of_not_isFixed hunit, monthsLater_eq hd h, if_neg hnot]

end Apply

end Term

/-! ### Expressions -/

namespace TimeExpr

section Expressions

variable {expr : String} {t : Term} {ms : Int} {d first e : Date}

/-- An expression of one term that reaches its date resolves to it. -/
theorem resolve_of_reaches (h : Offsets expr [t]) (hunit : ¬ t.unit.IsFixed) (hd : d.On ms)
    (he : Date.MonthsLater t.shiftMonths d first e) (hreaches : t.Reaches d first e) :
    resolve expr ms = .ok (ofDayAndTime e.dayNumber (timeOfDay ms)) := by
  have hsize : ∀ u ∈ [t], u.amount < Number.sizeLimit :=
    List.forall_mem_singleton.2 (Term.lt_sizeLimit t.unit.months_pos hreaches.months)
  rw [resolve_offsets h hsize, Term.applyAll_singleton, Term.apply_of_reaches hunit hd he hreaches]
  rfl

/-- An expression of one term that does not is invalid. -/
theorem resolve_of_not_reaches (h : Offsets expr [t]) (hunit : ¬ t.unit.IsFixed) (hd : d.On ms)
    (he : Date.MonthsLater t.shiftMonths d first e) (hreaches : ¬ t.Reaches d first e) :
    ∃ fault, resolve expr ms = .error (.expression (Text.trim expr) fault) := by
  have hterms : Term.applyAll [t] ms = .error .outOfRange := by
    rw [Term.applyAll_singleton, Term.apply_of_not_reaches hunit hd he hreaches]
  exact resolve_of_applyAll_error h hterms

end Expressions

/-- **Calendar terms follow the arithmetic of months.** Where an expression that puts one term in
years or months after `now` resolves, it is to the date so many months after that of the present
instant, at the same time of the day: to the same day of the month there or, where the month is too
short, to as many days into the next month as the day is past its end. The expression resolves just
when the term reaches that date, and is invalid just when it does not: when the number of months is
no word, or the date of the present instant, the first day of the month or the date in the end is
outside the calendar. -/
theorem resolve_calendar_term {expr : String} {t : Term} (h : Offsets expr [t])
    (hunit : t.unit = .year ∨ t.unit = .month) (ms : Int) :
    ∃ d first e : Date, d.On ms ∧ Date.MonthsLater t.shiftMonths d first e ∧
      (∀ later, resolve expr ms = .ok later → e.On later ∧ timeOfDay later = timeOfDay ms) ∧
      ((∃ later, resolve expr ms = .ok later) ↔ t.Reaches d first e) ∧
      ((∃ fault, resolve expr ms = .error (.expression (Text.trim expr) fault)) ↔
        ¬ t.Reaches d first e) := by
  have hnot : ¬ t.unit.IsFixed := fun hfixed => hunit.elim hfixed.1 hfixed.2
  obtain ⟨d, hd⟩ := Date.exists_on ms
  obtain ⟨first, e, he⟩ := Date.exists_monthsLater t.shiftMonths hd.valid
  refine ⟨d, first, e, hd, he, ?_⟩
  by_cases hreaches : t.Reaches d first e
  · have hok := resolve_of_reaches h hnot hd he hreaches
    have htime := timeOfDay_bounds ms
    rw [hok]
    refine ⟨?_, ⟨fun _ => hreaches, fun _ => ⟨_, rfl⟩⟩, ?_, fun hno => absurd hreaches hno⟩
    · rintro later ⟨⟩
      exact ⟨⟨he.valid, (dayOf_ofDayAndTime htime).symm⟩, timeOfDay_ofDayAndTime htime⟩
    · rintro ⟨fault, ⟨⟩⟩
  · obtain ⟨fault, hfault⟩ := resolve_of_not_reaches h hnot hd he hreaches
    rw [hfault]
    refine ⟨?_, ⟨?_, fun hyes => absurd hyes hreaches⟩, fun _ => hreaches, fun _ => ⟨fault, rfl⟩⟩
    · rintro later ⟨⟩
    · rintro ⟨later, ⟨⟩⟩

/-- Thirteen months before the last day of a March comes a February, which has no such day, so it is
three days into March again. -/
theorem resolve_calendar_term_before_year_zero :
    Offsets "now-13m" [⟨true, 13, .month⟩] ∧ (⟨0, 3, 31⟩ : Date).On (-62159425199999) ∧
      ∃ later, resolve "now-13m" (-62159425199999) = .ok later ∧
        (⟨-1, 3, 3⟩ : Date).On later ∧ timeOfDay later = 18000001 := by
  have h : Offsets "now-13m" [⟨true, 13, .month⟩] := offsets_ofTerms _
  have hstart : (⟨0, 3, 31⟩ : Date).On (-62159425199999) := ⟨by decide, by decide⟩
  obtain ⟨d, first, e, hd, he, hok, hreached, -⟩ :=
    resolve_calendar_term h (.inr rfl) (-62159425199999)
  -- An instant has one date, and one date comes so many months after it.
  obtain rfl : (⟨0, 3, 31⟩ : Date) = d := hstart.ofDayNumber_eq.symm.trans hd.ofDayNumber_eq
  obtain rfl : first = ⟨-1, 2, 1⟩ := he.first_eq.trans (by decide)
  obtain rfl : e = ⟨-1, 3, 3⟩ := by
    rw [← Date.ofDayNumber_dayNumber he.valid, he.dayNumber_eq]
    decide
  obtain ⟨later, hlater⟩ := hreached.2 ⟨by decide, by decide, by decide, by decide⟩
  obtain ⟨hon, htime⟩ := hok later hlater
  exact ⟨h, hstart, later, hlater, hon, htime⟩

end TimeExpr

end TrafficBoard
