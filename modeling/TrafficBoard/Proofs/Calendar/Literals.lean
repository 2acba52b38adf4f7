import Mathlib
import TrafficBoard.Proofs.Calendar.Days
import TrafficBoard.Proofs.Calendar.OnePass
import TrafficBoard.Range.Expr

namespace TrafficBoard

/-!
# Date-time literals — every accepted form and the instant of each

* `Calendar.Literal` is a literal in one of its forms: a date, an hour and a minute, then seconds, a
  fraction and a zone where they are given; `text` is what it looks like;
* `Literal.Exists` says that the calendar and the clock have its time, `Literal.instant` counts the
  milliseconds from 1970 to it;
* `literal?_text` says that one pass finds that instant, and none for a time that does not exist,
  and `parse?_text` that the formats do, tried one after another;
* `TimeExpr.resolve_surrounded_literal` is the same for an expression with blanks around it.

The numbers of a literal have as many digits as their place, whatever they are, so a literal can
name a thirteenth month or a twenty-fifth hour. Its seconds and its offset are those of a clock.
-/

namespace Calendar

/-! ### The forms of a literal -/

/-- The digits of a fraction of a second. -/
structure Fraction where
  digits : List Char
  isDigit : ∀ c ∈ digits, Text.isDigit c
  nonempty : digits ≠ []

/-- What may be written of the seconds. -/
inductive Seconds where
  | none
  | whole (seconds : Fin 60)
  | fraction (seconds : Fin 60) (part : Fraction)

/-- What may be written of the zone. -/
inductive Zone where
  | none
  | utc
  | offset (negative : Bool) (hours : Fin 24) (minutes : Fin 60)

/-- A date-time literal. -/
structure Literal where
  year : Fin 10000
  month : Fin 100
  day : Fin 100
  hour : Fin 100
  minute : Fin 100
  seconds : Seconds
  zone : Zone

/-- The digits of a number in a place of a given width. -/
def place (width n : Nat) : List Char :=
  (Text.padded width n).toList

/-- The part of a second that a fraction names, in whole milliseconds. -/
def Fraction.ms (f : Fraction) : Nat :=
  Text.natOfDigits f.digits * 1000 / 10 ^ f.digits.length

namespace Seconds

/-- What the seconds look like. -/
def text : Seconds → List Char
  | .none => []
  | .whole seconds => ':' :: place 2 seconds
  | .fraction seconds part => ':' :: (place 2 seconds ++ '.' :: part.digits)

/-- The milliseconds from the start of the minute. -/
def ms : Seconds → Nat
  | .none => 0
  | .whole seconds => seconds * 1000
  | .fraction seconds part => seconds * 1000 + part.ms

end Seconds

namespace Zone

/-- The sign of an offset. -/
def signChar (negative : Bool) : Char :=
  if negative then '-' else '+'

/-- What a zone looks like. -/
def text : Zone → List Char
  | .none => []
  | .utc => ['Z']
  | .offset negative hours minutes => signChar negative :: (place 2 hours ++ ':' :: place 2 minutes)

/-- The seconds by which the clocks of a zone are ahead. -/
def ahead : Zone → Int
  | .none => 0
  | .utc => 0
  | .offset negative hours minutes =>
    (if negative then -1 else 1) * (hours * 3600 + minutes * 60 : Nat)

end Zone

namespace Literal

/-- The date of a literal. -/
def date (l : Literal) : Date where
  year := (l.year : Nat)
  month := l.month
  day := l.day

/-- What a literal looks like. -/
def text (l : Literal) : List Char :=
  place 4 l.year ++ '-' :: (place 2 l.month ++ '-' :: (place 2 l.day ++ 'T' ::
    (place 2 l.hour ++ ':' :: (place 2 l.minute ++ (l.seconds.text ++ l.zone.text)))))

/-- The calendar has the day of a literal, and the clock its hour and minute. -/
def Exists (l : Literal) : Prop :=
  l.date.Valid ∧ l.hour.val ≤ 23 ∧ l.minute.val ≤ 59

instance (l : Literal) : Decidable l.Exists := inferInstanceAs (Decidable (_ ∧ _))

/-- The milliseconds from the start of 1970 to the time of a literal, read as Coordinated Universal
Time less the offset. -/
def instant (l : Literal) : Int :=
  ((l.date.countedDays : Int) - Date.unixEpoch.countedDays) * 86400000 + l.hour.val * 3600000 +
    l.minute.val * 60000 + l.seconds.ms - l.zone.ahead * 1000

end Literal

/-! ### Places -/

/-- A place holds digits. -/
theorem isDigit_of_mem_place {width n : Nat} {c : Char} (h : c ∈ place width n) : Text.isDigit c :=
  Text.isDigit_of_mem_padded h

/-- No digit of a place is a blank. -/
theorem isBlank_of_mem_place {width n : Nat} {c : Char} (h : c ∈ place width n) :
    Text.isBlank c = false :=
  Text.isBlank_of_isDigit (isDigit_of_mem_place h)

section Place

variable (width : Nat) {n : Nat}

/-- **A number is read off its place,** with what comes after it left over. -/
theorem number?_place {least : Nat} (hleast : least ≤ width) (hwidth : 0 < width)
    (hn : n < 10 ^ width) (rest : List Char) :
    number? least width (place width n ++ rest) = some (n, rest) := by
  have hlength : (place width n).length = width := Text.length_padded hwidth hn
  have htake : (place width n ++ rest).take width = place width n := List.take_left' hlength
  have hdigits : (place width n).takeWhile Text.isDigit = place width n :=
    List.takeWhile_eq_self_iff.2 fun c hc => isDigit_of_mem_place hc
  have hvalue : Text.natOfDigits (place width n) = n := Text.natOfDigits_padded
  rw [number?, htake, hdigits, if_neg (by omega), List.drop_left, hvalue]

/-- What skips no digit skips nothing of a place. -/
theorem dropWhile_place (hwidth : 0 < width) (hn : n < 10 ^ width) {p : Char → Bool}
    (hp : ∀ c, Text.isDigit c → p c = false) (rest : List Char) :
    (place width n ++ rest).dropWhile p = place width n ++ rest := by
  have hlength : (place width n).length = width := Text.length_padded hwidth hn
  cases hplace : place width n with
  | nil => rw [hplace] at hlength; exact absurd hlength hwidth.ne
  | cons c digits =>
    have hc : p c = false := hp c (isDigit_of_mem_place (by rw [hplace]; exact List.mem_cons_self))
    exact List.dropWhile_cons_of_neg (by rw [hc]; exact Bool.false_ne_true)

end Place

/-! ### Zones -/

namespace Zone

/-- An offset is read off its text. -/
theorem wholeOffset?_text (negative : Bool) (hours : Fin 24) (minutes : Fin 60) :
    wholeOffset? (offset negative hours minutes).text =
      some (offset negative hours minutes).ahead := by
  have hminutes := number?_place 2 (n := minutes) le_rfl (by omega) (by omega) []
  rw [List.append_nil] at hminutes
  have hcolons : colons? (':' :: place 2 minutes) = some (place 2 minutes) :=
    colons?_of_colon? (by omega) rfl hminutes
  have hhours := number?_place 2 (n := hours) le_rfl (by omega) (by omega) (':' :: place 2 minutes)
  have hsign : Text.dropBlank (offset negative hours minutes).text =
      (offset negative hours minutes).text :=
    Text.dropBlank_of_head? fun c hc => by cases negative <;> cases hc <;> decide
  have hbound : minutes.val ≤ 59 := by omega
  refine whole?_eq_some_iff.2 ⟨?_, ?_⟩
  · rw [hsign, text, offset?]
    simp only [hhours, hcolons, hminutes, hbound, Bool.false_eq_true, false_and, if_true, if_false,
      Option.bind_eq_bind, Option.bind_some]
    cases negative <;> rfl
  · cases negative with
    | false =>
      rw [ahead, if_neg Bool.false_ne_true]
      omega
    | true =>
      rw [ahead, if_pos rfl]
      omega

/-- **A zone is read off its text.** -/
theorem zone?_text (lower : Bool) (z : Zone) : zone? lower z.text = some z.ahead := by
  cases z with
  | none => rfl
  | utc => rfl
  | offset negative hours minutes =>
    exact zone?_of_wholeOffset? (wholeOffset?_text negative hours minutes)

/-- A zone does not start like seconds, a fraction or a further digit. -/
theorem head?_text {c : Char} {z : Zone} (h : c ∈ z.text.head?) : c = 'Z' ∨ c = '+' ∨ c = '-' := by
  cases z with
  | none => cases h
  | utc => exact .inl (by simpa [text] using h.symm)
  | offset negative hours minutes =>
    cases negative with
    | false => exact .inr (.inl (Option.some.inj h).symm)
    | true => exact .inr (.inr (Option.some.inj h).symm)

/-- No blank stands in a zone. -/
theorem isBlank_of_mem_text {c : Char} {z : Zone} (h : c ∈ z.text) : Text.isBlank c = false := by
  cases z with
  | none => cases h
  | utc =>
    rw [List.mem_singleton.1 h]
    decide
  | offset negative hours minutes =>
    simp only [text, List.mem_cons, List.mem_append] at h
    rcases h with rfl | hc | rfl | hc
    · cases negative <;> decide
    · exact isBlank_of_mem_place hc
    · decide
    · exact isBlank_of_mem_place hc

end Zone

/-! ### Seconds -/

/-- No blank stands in seconds. -/
theorem Seconds.isBlank_of_mem_text {c : Char} {s : Seconds} (h : c ∈ s.text) :
    Text.isBlank c = false := by
  cases s with
  | none => cases h
  | whole seconds =>
    rcases List.mem_cons.1 h with rfl | hc
    · decide
    · exact isBlank_of_mem_place hc
  | fraction seconds part =>
    simp only [text, List.mem_cons, List.mem_append] at h
    rcases h with rfl | hc | rfl | hc
    · decide
    · exact isBlank_of_mem_place hc
    · decide
    · exact Text.isBlank_of_isDigit (part.isDigit c hc)

/-- The nanoseconds of a fraction are read in whole milliseconds. -/
theorem nanoseconds_div (f : Fraction) : nanoseconds f.digits / 1000000 = f.ms := by
  have hpow (n : Nat) : Nat.pow 10 n = 10 ^ n := rfl
  rw [nanoseconds, Fraction.ms, hpow]
  rcases Nat.le_total f.digits.length 9 with hshort | hlong
  · have hplaces : 10 ^ f.digits.length * 10 ^ (9 - f.digits.length) = 1000000 * 1000 := by
      rw [← pow_add, Nat.add_sub_cancel' hshort]
      norm_num
    rw [List.take_of_length_le hshort, ← Nat.mul_div_mul_right _ 1000000 (show 0 < 1000 by omega),
      ← hplaces, mul_right_comm, Nat.mul_div_mul_right _ _ (by positivity)]
  · -- The digits after the ninth are worth less than a nanosecond.
    have hdigits : ∀ c ∈ f.digits.drop 9, Text.isDigit c := fun c hc =>
      f.isDigit c (List.mem_of_mem_drop hc)
    have hlt := Text.natOfDigits_lt hdigits
    have hplaces : 10 ^ f.digits.length = 10 ^ (f.digits.drop 9).length * (1000000 * 1000) := by
      rw [List.length_drop, show 1000000 * 1000 = 10 ^ 9 by norm_num, ← pow_add,
        Nat.sub_add_cancel hlong]
    have hsplit : Text.natOfDigits f.digits =
        10 ^ (f.digits.drop 9).length * Text.natOfDigits (f.digits.take 9) +
          Text.natOfDigits (f.digits.drop 9) := by
      rw [mul_comm, ← Text.natOfDigits_append, List.take_append_drop]
    rw [Nat.sub_eq_zero_of_le hlong, pow_zero, mul_one, hplaces, ← mul_assoc,
      Nat.mul_div_mul_right _ _ (by omega), ← Nat.div_div_eq_div_mul, hsplit,
      Nat.mul_add_div (by positivity), Nat.div_eq_of_lt hlt, Nat.add_zero]

/-- **The fraction of a second** is read with what follows it left over, if no digit does. -/
theorem fraction?_digits (f : Fraction) {rest : List Char}
    (hrest : ∀ c ∈ rest.head?, Text.isDigit c = false) :
    fraction? ('.' :: (f.digits ++ rest)) = some (nanoseconds f.digits, rest) := by
  unfold fraction?
  simp only [Text.takeWhile_run f.isDigit hrest, Text.dropWhile_run f.isDigit hrest,
    List.isEmpty_iff, f.nonempty, if_false]

/-- The seconds are read off their place after a colon. -/
theorem second?_place (seconds : Fin 60) (rest : List Char) :
    second? (':' :: (place 2 seconds ++ rest)) = some (seconds.val, rest) := by
  have hblank : Text.dropBlank (place 2 seconds ++ rest) = place 2 seconds ++ rest :=
    dropWhile_place 2 (by omega) (by omega) (fun _ => Text.isBlank_of_isDigit) rest
  have hnumber := number?_place 2 (n := seconds) (show 1 ≤ 2 by omega) (by omega) (by omega) rest
  have hbound : seconds.val ≤ 60 := by omega
  simp only [second?, colon?, skip?, decide_true, if_true, Option.bind_eq_bind, Option.bind_some,
    hblank, hnumber, hbound]

/-- **Seconds and zone are read together:** the milliseconds after the minute, less the offset. -/
theorem seconds?_text (s : Seconds) (z : Zone) :
    seconds? (s.text ++ z.text) = some (s.ms - z.ahead * 1000) := by
  have hhead {c : Char} (h : c ∈ z.text.head?) := Zone.head?_text h
  cases s with
  | none =>
    have hcolon : ':' ∉ z.text.head? := fun h => absurd (hhead h) (by decide)
    show seconds? z.text = _
    rw [seconds?_of_head? hcolon, Zone.zone?_text, Option.map_some]
    simp [clockMs, Seconds.ms]
  | whole seconds =>
    have hpoint : '.' ∉ z.text.head? := fun h => absurd (hhead h) (by decide)
    show seconds? (':' :: (place 2 seconds ++ z.text)) = _
    rw [seconds?_of_second? (second?_place seconds z.text) (fraction?_of_head? hpoint)
      (Zone.zone?_text _ z), clockMs, Seconds.ms]
    push_cast
    congr 1
    ring
  | fraction seconds part =>
    have hdigit : ∀ c ∈ z.text.head?, Text.isDigit c = false := fun c h => by
      rcases hhead h with rfl | rfl | rfl <;> decide
    show seconds? (':' :: (place 2 seconds ++ '.' :: part.digits) ++ z.text) = _
    rw [List.cons_append, List.append_assoc, List.cons_append,
      seconds?_of_second? (second?_place seconds _) (fraction?_digits part hdigit)
        (Zone.zone?_text _ z), clockMs, nanoseconds_div, Seconds.ms]
    push_cast
    congr 1
    ring

/-! ### Literals -/

namespace Literal

/-- The instant of a literal from the day number of its date. -/
theorem instant_eq (l : Literal) : l.instant =
    ofDayAndTime l.date.dayNumber ((l.hour * 60 + l.minute : Nat) * 60000) +
      (l.seconds.ms - l.zone.ahead * 1000) := by
  have hyear : 0 ≤ l.date.year := Int.natCast_nonneg _
  rw [Date.dayNumber_eq_countedDays hyear, instant, ofDayAndTime, dayMs]
  push_cast
  ring

/-- A place is a run of digits. -/
def run (width n : Nat) (hwidth : 0 < width) (hn : n < 10 ^ width) : Run width where
  digits := place width n
  length_digits := Text.length_padded hwidth hn
  isDecimal _ hc := Text.isDecimal_of_isDigit (isDigit_of_mem_place hc)

/-- The front of a literal. -/
def front (l : Literal) : Front where
  year := run 4 l.year (by omega) (by omega)
  month := run 2 l.month (by omega) (by omega)
  day := run 2 l.day (by omega) (by omega)
  hour := run 2 l.hour (by omega) (by omega)
  minute := run 2 l.minute (by omega) (by omega)

/-- A literal is its front with what is written of the seconds and the zone after it. -/
theorem text_eq_front (l : Literal) : l.text = l.front.text (l.seconds.text ++ l.zone.text) := by
  simp only [text, Front.text, front, run]

/-- The number of a place is the one written there. -/
theorem value?_run (width n : Nat) (hwidth : 0 < width) (hn : n < 10 ^ width) :
    (run width n hwidth hn).value? = some n := by
  have hdigits : (run width n hwidth hn).digits = place width n := by rw [run]
  rw [Run.value?_of_isDigit _ hwidth (hdigits ▸ fun _ => isDigit_of_mem_place), hdigits, place,
    Text.natOfDigits_padded]

/-- The fields of a literal up to its minute. -/
def fields (l : Literal) : Fields where
  year := some (l.year.val : Int)
  month := some l.month.val
  day := some l.day.val
  hour := some l.hour.val
  minute := some l.minute.val

/-- **The front of a literal is its minute,** if the calendar and the clock have it. -/
theorem bind_fields?_front (l : Literal) : l.front.fields?.bind (Fields.instant? 0) =
    if l.Exists then
      some (ofDayAndTime l.date.dayNumber ((l.hour * 60 + l.minute : Nat) * 60000)) else none := by
  by_cases hexists : l.Exists
  · obtain ⟨hvalid, hhour, hminute⟩ := hexists
    obtain ⟨hmonth, hmonth', hday, hday'⟩ := id hvalid
    have hlength := (monthLength_bounds l.date.year ⟨hmonth, hmonth'⟩).2
    have hfields : l.front.fields? = some l.fields := by
      simp only [Front.fields?, front, value?_run, Option.bind_eq_bind, Option.bind_some,
        Option.bind_eq_some_iff, Fields.set?_eq_some_iff]
      exact ⟨_, ⟨⟨hmonth, hmonth'⟩, rfl⟩, _, ⟨⟨hday, hday'.trans hlength⟩, rfl⟩, _,
        ⟨⟨Nat.zero_le _, hhour⟩, rfl⟩, ⟨Nat.zero_le _, hminute⟩, rfl⟩
    have hinstant := Front.instant?_minute l.month.val l.day.val l.year.isLt hhour hminute 0 0 none
      (show -86400 < (0 : Int) ∧ (0 : Int) < 86400 by omega)
    rw [hfields, if_pos ⟨hvalid, hhour, hminute⟩, Option.bind_some, fields, hinstant, if_pos]
    · simp [clockMs, date]
    · exact hvalid
  · rw [if_neg hexists, Option.bind_eq_none_iff]
    intro f hf
    simp only [Front.fields?, front, value?_run, Option.bind_eq_bind, Option.bind_some,
      Option.bind_eq_some_iff, Fields.set?_eq_some_iff] at hf
    obtain ⟨f₁, ⟨-, rfl⟩, f₂, ⟨-, rfl⟩, f₃, ⟨hhour, rfl⟩, hminute, rfl⟩ := hf
    have hvalid : ¬l.date.Valid := fun h => hexists ⟨h, hhour.2, hminute.2⟩
    simp only [Fields.put]
    rw [Front.instant?_minute _ _ l.year.isLt hhour.2 hminute.2 0 0 none (by omega)]
    exact if_neg hvalid

/-- **A literal is read as its instant,** and is refused if its time does not exist. -/
theorem literal?_text (l : Literal) :
    literal? l.text = if l.Exists then some l.instant else none := by
  rw [text_eq_front, reads_literal?, bind_fields?_front, seconds?_text]
  by_cases hexists : l.Exists
  · rw [if_pos hexists, if_pos hexists, instant_eq]
    rfl
  · rw [if_neg hexists, if_neg hexists]
    rfl

/-- No blank stands in a literal. -/
theorem isBlank_of_mem_text {l : Literal} {c : Char} (h : c ∈ l.text) : Text.isBlank c = false := by
  simp only [text, List.mem_append, List.mem_cons] at h
  rcases h with hc | rfl | hc | rfl | hc | rfl | hc | rfl | hc | hc | hc
  · exact isBlank_of_mem_place hc
  · decide
  · exact isBlank_of_mem_place hc
  · decide
  · exact isBlank_of_mem_place hc
  · decide
  · exact isBlank_of_mem_place hc
  · decide
  · exact isBlank_of_mem_place hc
  · exact Seconds.isBlank_of_mem_text hc
  · exact Zone.isBlank_of_mem_text hc

/-- **A literal looks like one.** -/
theorem looksLikeLiteral_text (l : Literal) : looksLikeLiteral l.text = true := by
  rw [text_eq_front]
  exact l.front.looksLikeLiteral_text _

/-- **The formats read a literal as its instant,** whichever of them it is in. -/
theorem parse?_text (l : Literal) : parse? l.text = if l.Exists then some l.instant else none := by
  rw [parse?_eq_literal? l.looksLikeLiteral_text, literal?_text]

end Literal

end Calendar

/-! ### Expressions -/

namespace TimeExpr

open Calendar

/-- A literal is neither empty nor a run of digits, so it is read as a literal. -/
theorem resolveTrimmed_literal (l : Literal) (base : Int) :
    resolveTrimmed base l.text = if l.Exists then .ok l.instant else .error .date := by
  have hdash : '-' ∈ l.text := List.mem_append_right _ List.mem_cons_self
  have hne : ¬l.text.isEmpty = true := fun h => by
    rw [List.isEmpty_iff.1 h] at hdash
    cases hdash
  have hdigits (count : Nat) : ¬isDigits count l.text = true := fun h => by
    rw [isDigits, Bool.and_eq_true, List.all_eq_true] at h
    exact absurd (h.2 '-' hdash) (by decide)
  rw [resolveTrimmed, if_neg hne, if_neg (hdigits 10), if_neg (hdigits 13),
    if_pos l.looksLikeLiteral_text, l.parse?_text]
  by_cases hexists : l.Exists
  · rw [if_pos hexists, if_pos hexists]
  · rw [if_neg hexists, if_neg hexists]

/-- **A literal with blanks around it names its instant,** whatever the present instant, and is an
invalid expression if its time does not exist. -/
theorem resolve_surrounded_literal (l : Literal) (base : Int) {before after : List Char}
    (hbefore : ∀ c ∈ before, Text.isBlank c) (hafter : ∀ c ∈ after, Text.isBlank c) :
    resolve (String.ofList (before ++ l.text ++ after)) base =
      if l.Exists then .ok l.instant else .error (.expression (String.ofList l.text) .date) := by
  have hne : l.text ≠ [] := fun h => by simp [Literal.text] at h
  have htrim : Text.trimChars (before ++ l.text ++ after) = l.text :=
    Text.trimChars_surrounded hbefore hafter hne
      (fun _ hc => Literal.isBlank_of_mem_text (List.mem_of_mem_head? hc))
      (fun _ hc => Literal.isBlank_of_mem_text (List.mem_of_mem_getLast? hc))
  rw [resolve, String.toList_ofList]
  simp only [htrim, resolveTrimmed_literal]
  by_cases hexists : l.Exists
  · rw [if_pos hexists, if_pos hexists]
    rfl
  · rw [if_neg hexists, if_neg hexists]
    rfl

/-- Half past eleven in the evening of a leap day, five and a half hours behind, is five in the
morning of the next day. -/
theorem resolve_surrounded_leap_day :
    (∀ c ∈ [' '], Text.isBlank c) ∧ (∀ c ∈ ['\n'], Text.isBlank c) ∧
      resolve " 2024-02-29T23:30:00.5-05:30\n" 0 = .ok 1709269200500 := by
  let half : Fraction := ⟨['5'], List.forall_mem_singleton.2 rfl, by decide⟩
  let l : Literal := ⟨2024, 2, 29, 23, 30, .fraction 0 half, .offset true 5 30⟩
  have hbefore : ∀ c ∈ [' '], Text.isBlank c := List.forall_mem_singleton.2 (by decide)
  have hafter : ∀ c ∈ ['\n'], Text.isBlank c := List.forall_mem_singleton.2 (by decide)
  have htext : " 2024-02-29T23:30:00.5-05:30\n" = String.ofList ([' '] ++ l.text ++ ['\n']) := by
    decide
  have hinstant : l.instant = 1709269200500 := by
    rw [l.instant_eq]
    decide
  refine ⟨hbefore, hafter, ?_⟩
  rw [htext, resolve_surrounded_literal l 0 hbefore hafter, if_pos (by decide), hinstant]

end TimeExpr

end TrafficBoard
