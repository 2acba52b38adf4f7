import TrafficBoard.Calendar.Date
import TrafficBoard.Text.Digit

namespace TrafficBoard.Calendar

/-!
# Instants — milliseconds since 1970 and their place in the calendar

* `dayOf` and `timeOfDay` split an instant at midnight, `ofDayAndTime` joins the two;
* `Supported` bounds the instants that have a place in the calendar, from the start of `firstYear`
  to the end of `lastYear`;
* `monthsLater` moves an instant by calendar months, `stamp` writes it to the minute.
-/

/-- The milliseconds of a day. -/
def dayMs : Int := 86400000

/-- The first year of the calendar. -/
def firstYear : Int := -262143

/-- The last year of the calendar. -/
def lastYear : Int := 262142

/-- The day of an instant, counted from 1970-01-01. -/
def dayOf (ms : Int) : Int :=
  ms / dayMs

/-- The milliseconds from midnight to an instant. -/
def timeOfDay (ms : Int) : Int :=
  ms % dayMs

/-- The instant of a time of a day. -/
def ofDayAndTime (day time : Int) : Int :=
  day * dayMs + time

/-- An instant is its time of its day. -/
theorem ofDayAndTime_dayOf (ms : Int) : ofDayAndTime (dayOf ms) (timeOfDay ms) = ms := by
  simp only [ofDayAndTime, dayOf, timeOfDay, dayMs]
  omega

/-- A day with a place in the calendar. -/
def SupportedDay (day : Int) : Prop :=
  daysBeforeYear firstYear - epoch ≤ day ∧ day < daysBeforeYear (lastYear + 1) - epoch

instance (day : Int) : Decidable (SupportedDay day) := inferInstanceAs (Decidable (_ ∧ _))

/-- An instant with a place in the calendar. -/
def Supported (ms : Int) : Prop :=
  SupportedDay (dayOf ms)

instance (ms : Int) : Decidable (Supported ms) := inferInstanceAs (Decidable (SupportedDay _))

/-- The same time of the same day of the month, `months` months later. A day past the end of that
month runs on into the next. Both the first of the month and the day itself have to be supported. -/
def monthsLater (months ms : Int) : Option Int :=
  if Supported ms then
    let date := Date.ofDayNumber (dayOf ms)
    let first := (Date.firstOfMonth (date.monthIndex + months)).dayNumber
    let day := first + (date.day - 1 : Nat)
    if SupportedDay first ∧ SupportedDay day then some (ofDayAndTime day (timeOfDay ms)) else none
  else none

/-- A year in at least four digits, with a sign where it is not one of the years 0 to 9999. -/
def yearText (year : Int) : String :=
  let sign := if year < 0 then "-" else if 9999 < year then "+" else ""
  sign ++ Text.padded 4 year.natAbs

/-- The date and the minute of an instant, if it has a place in the calendar. -/
def stamp (ms : Int) : Option String :=
  if Supported ms then
    let date := Date.ofDayNumber (dayOf ms)
    let minutes := (timeOfDay ms / 60000).toNat
    some (yearText date.year ++ "-" ++ Text.padded 2 date.month ++ "-" ++ Text.padded 2 date.day ++
      " " ++ Text.padded 2 (minutes / 60) ++ ":" ++ Text.padded 2 (minutes % 60))
  else none

end TrafficBoard.Calendar
