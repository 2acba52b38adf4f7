import Mathlib
import TrafficBoard.Label
import TrafficBoard.Proofs.Calendar.Literals
import TrafficBoard.Proofs.Calendar.Months
import TrafficBoard.Proofs.Number.Values

namespace TrafficBoard

/-!
# Printed instants — the date and the minute of an instant, read back as an expression

* `Calendar.exists_literal` is the literal of a date and a minute, and `Calendar.exists_stamp` says
  that what is printed for an instant is that literal, but for a blank in the place of its `T`;
* `Label.dateTime_ofInt` says that an instant with a place in the calendar is not rounded on its way
  through a double;
* `Label.resolve_dateTime` puts the two together: the printed text is an expression for the minute
  of the instant.

Only the years with four digits and no sign can be read back. The minute of an instant is rounded
down, before 1970 as after it, since days and times of the day are.
-/

namespace Calendar

/-- A date in one of the years that are written with four digits and no sign. -/
def Date.HasFourDigits (d : Date) : Prop :=
  0 ≤ d.year ∧ d.year ≤ 9999

instance (d : Date) : Decidable d.HasFourDigits := inferInstanceAs (Decidable (_ ∧ _))

/-- A text with a `T` in the place of every blank, as literals have it. -/
def joinAtT (s : String) : String :=
  String.ofList (s.toList.map fun c => if c = ' ' then 'T' else c)

/-! ### The literal of a minute -/

section Minutes

variable {d : Date} {ms : Int}

/-- A year with four digits has no sign. -/
theorem yearText_of_hasFourDigits (h : d.HasFourDigits) :
    yearText d.year = Text.padded 4 d.year.toNat := by
  obtain ⟨hlow, hhigh⟩ := h
  have hnat : d.year.natAbs = d.year.toNat := by omega
  unfold yearText
  rw [if_neg (by omega), if_neg (by omega), hnat]
  exact String.empty_append

/-- No blank is put in the place of a digit. -/
theorem map_place (width n : Nat) :
    (place width n).map (fun c => if c = ' ' then 'T' else c) = place width n := by
  have hdigit : ∀ c ∈ place width n, (if c = ' ' then 'T' else c) = c := fun c hc => by
    have hne : c ≠ ' ' := by
      rintro rfl
      exact absurd (isDigit_of_mem_place hc) (by decide)
    exact if_neg hne
  rw [List.map_congr_left hdigit, List.map_id']

/-- The literal of a date and a minute of the day. -/
theorem exists_literal (hvalid : d.Valid) (hyear : d.HasFourDigits) {minutes : Nat}
    (h : minutes < 1440) :
    ∃ l : Literal, l.date = d ∧ l.hour.val = minutes / 60 ∧ l.minute.val = minutes % 60 ∧
      l.seconds = .none ∧ l.zone = .none := by
  obtain ⟨hlow, hhigh, hday, hlength⟩ := hvalid
  obtain ⟨hfirst, hlast⟩ := hyear
  have hshort := (monthLength_bounds d.year ⟨hlow, hhigh⟩).2
  let l : Literal :=
    { year := ⟨d.year.toNat, by omega⟩
      month := ⟨d.month, by omega⟩
      day := ⟨d.day, by omega⟩
      hour := ⟨minutes / 60, by omega⟩
      minute := ⟨minutes % 60, by omega⟩
      seconds := .none
      zone := .none }
  have hdate : l.date = d := by
    have : ((d.year.toNat : Nat) : Int) = d.year := Int.toNat_of_nonneg hfirst
    show (⟨(d.year.toNat : Nat), d.month, d.day⟩ : Date) = d
    rw [this]
  exact ⟨l, hdate, rfl, rfl, rfl, rfl⟩

/-- An instant in a year with four digits has a place in the calendar. -/
theorem supported_of_hasFourDigits (hd : d.On ms) (hyear : d.HasFourDigits) : Supported ms := by
  obtain ⟨hlow, hhigh⟩ := hyear
  have hsupported : d.Supported := by
    unfold Date.Supported firstYear lastYear
    omega
  unfold Supported
  rw [← hd.day]
  exact (Date.supportedDay_iff hd.valid).mpr hsupported

/-- The text that is printed for the minute of a literal is the literal itself, but for a blank in
the place of its `T`. -/
theorem Literal.joinAtT_eq {l : Literal} {d : Date} {minutes : Nat} (hyear : d.HasFourDigits)
    (hdate : l.date = d) (hhour : l.hour.val = minutes / 60) (hminute : l.minute.val = minutes % 60)
    (hseconds : l.seconds = .none) (hzone : l.zone = .none) :
    joinAtT (yearText d.year ++ "-" ++ Text.padded 2 d.month ++ "-" ++ Text.padded 2 d.day ++ " " ++
      Text.padded 2 (minutes / 60) ++ ":" ++ Text.padded 2 (minutes % 60)) =
      String.ofList l.text := by
  have hwritten : d.year.toNat = l.year.val := by
    rw [← hdate]
    exact Int.toNat_natCast l.year.val
  have hmonth : d.month = l.month.val := by rw [← hdate]; rfl
  have hday : d.day = l.day.val := by rw [← hdate]; rfl
  have hplace (width n : Nat) :
      (Text.padded width n).toList.map (fun c => if c = ' ' then 'T' else c) = place width n :=
    map_place width n
  have hseparators : "-".toList = ['-'] ∧ " ".toList = [' '] ∧ ":".toList = [':'] := by decide
  obtain ⟨hdash, hblank, hcolon⟩ := hseparators
  rw [yearText_of_hasFourDigits hyear, hwritten, hmonth, hday, ← hhour, ← hminute, joinAtT, text,
    hseconds, hzone]
  simp only [String.toList_append, List.map_append, hplace, hdash, hblank, hcolon, List.map_cons,
    List.append_assoc, List.cons_append, List.nil_append, Seconds.text, Zone.text,
    List.append_nil, if_true, Char.reduceEq, if_false]

/-- **What is printed for an instant is a literal,** but for a blank in the place of its `T`. The
literal exists, and it is that of the minute in which the instant lies. -/
theorem exists_stamp (hd : d.On ms) (hyear : d.HasFourDigits) :
    ∃ (s : String) (l : Literal), stamp ms = some s ∧ joinAtT s = String.ofList l.text ∧
      l.Exists ∧ l.instant = ms / 60000 * 60000 := by
  obtain ⟨htime, hmidnight⟩ := timeOfDay_bounds ms
  simp only [dayMs] at hmidnight
  have hminutes : (timeOfDay ms / 60000).toNat < 1440 := by omega
  obtain ⟨l, hdate, hhour, hminute, hseconds, hzone⟩ := exists_literal hd.valid hyear hminutes
  have htext := Literal.joinAtT_eq hyear hdate hhour hminute hseconds hzone
  refine ⟨_, l, if_pos (supported_of_hasFourDigits hd hyear), ?_, ⟨hdate ▸ hd.valid, ?_, ?_⟩, ?_⟩
  · simp only [hd.ofDayNumber_eq]
    exact htext
  · omega
  · omega
  · rw [l.instant_eq, hdate, hd.day, hhour, hminute, hseconds, hzone]
    simp only [ofDayAndTime, dayMs, dayOf, timeOfDay, Seconds.ms, Zone.ahead] at htime hmidnight ⊢
    omega

end Minutes

end Calendar

/-! ### Expressions -/

/-- A literal is an expression for its instant. -/
theorem TimeExpr.resolve_text {l : Calendar.Literal} (h : l.Exists) (base : Int) :
    resolve (String.ofList l.text) base = .ok l.instant := by
  have hdash : '-' ∈ l.text := List.mem_append_right _ List.mem_cons_self
  have htrim : Text.trimChars l.text = l.text := by
    have hnothing : ∀ c ∈ ([] : List Char), Text.isBlank c := fun c hc => absurd hc List.not_mem_nil
    have := Text.trimChars_surrounded hnothing hnothing (List.ne_nil_of_mem hdash)
      (fun _ hc => Calendar.Literal.isBlank_of_mem_text (List.mem_of_mem_head? hc))
      (fun _ hc => Calendar.Literal.isBlank_of_mem_text (List.mem_of_mem_getLast? hc))
    rwa [List.nil_append, List.append_nil] at this
  unfold resolve
  simp only [String.toList_ofList, htrim, resolveTrimmed_literal, if_pos h]
  rfl

namespace Label

open Calendar

variable {d : Date} {ms : Int}

/-- The years with four digits are few enough for a double. -/
theorem natAbs_lt_of_hasFourDigits (hd : d.On ms) (hyear : d.HasFourDigits) :
    ms.natAbs < 2 ^ 53 := by
  obtain ⟨hlow, hhigh⟩ := Date.dayNumber_bounds hd.valid
  have hfirst : daysBeforeYear 0 ≤ daysBeforeYear d.year :=
    strictMono_daysBeforeYear.monotone hyear.1
  have hlast : daysBeforeYear (d.year + 1) ≤ daysBeforeYear 10000 :=
    strictMono_daysBeforeYear.monotone (by have := hyear.2; omega)
  have hends : daysBeforeYear 0 = 0 ∧ daysBeforeYear 10000 = 3652425 := by decide
  have hday := hd.day
  simp only [epoch, dayOf, dayMs] at hlow hhigh hday
  omega

/-- **An instant is not rounded** on its way through a double. -/
theorem dateTime_ofInt (h : ms.natAbs < 2 ^ 53) :
    dateTime (.ofInt ms) = dateTimeOf ms := by
  obtain ⟨hfinite, hvalue⟩ := Number.Double.value_ofInt h
  have hword : Number.clampWord ms = ms := by
    unfold Number.clampWord Number.wordMin Number.wordMax
    omega
  unfold dateTime ofFinite
  dsimp only
  rw [if_pos hfinite, Number.Double.truncate_of_value hvalue, hword]

/-- **Printed instants are read back.** Of an instant in one of the years 0 to 9999, what is printed
is, with a `T` for its blank, an expression for the instant rounded down to the minute, whatever the
present instant is. -/
theorem resolve_dateTime (hd : d.On ms) (hyear : d.HasFourDigits) (base : Int) :
    TimeExpr.resolve (joinAtT (dateTime (.ofInt ms))) base = .ok (ms / 60000 * 60000) := by
  obtain ⟨s, l, hstamp, htext, hexists, hinstant⟩ := exists_stamp hd hyear
  rw [dateTime_ofInt (natAbs_lt_of_hasFourDigits hd hyear), dateTimeOf, hstamp, Option.getD_some,
    htext, TimeExpr.resolve_text hexists, hinstant]

/-- The last millisecond before 1970 is in the last minute of 1969, and one on a leap day of year
zero in its own. -/
theorem resolve_dateTime_before_epoch :
    let d : Date := ⟨1969, 12, 31⟩
    let leap : Date := ⟨0, 2, 29⟩
    (d.On (-1) ∧ d.HasFourDigits) ∧ (leap.On (-62162035200001) ∧ leap.HasFourDigits) ∧
      TimeExpr.resolve (joinAtT (dateTime (.ofInt (-1)))) 0 = .ok (-60000) ∧
      TimeExpr.resolve (joinAtT (dateTime (.ofInt (-62162035200001)))) 7 =
        .ok (-62162035260000) := by
  intro d leap
  have hd : d.On (-1) := ⟨by decide, by decide⟩
  have hleap : leap.On (-62162035200001) := ⟨by decide, by decide⟩
  exact ⟨⟨hd, by decide⟩, ⟨hleap, by decide⟩, resolve_dateTime hd (by decide) 0,
    resolve_dateTime hleap (by decide) 7⟩

end Label

end TrafficBoard
