import Mathlib
import TrafficBoard.Calendar.Literal
import TrafficBoard.Proofs.Calendar.Dates
import TrafficBoard.Proofs.Text.Digits

namespace TrafficBoard.Calendar

/-!
# Fronts — the sixteen characters that every format of a literal starts with

* `Front` is what `looksLikeLiteral` recognises: five runs of digits, of any script, with the
  characters of the pattern between them; `exists_front` says so;
* `Front.fields?` are the numbers of the runs, if their digits are ASCII ones and the numbers fit;
* `Front.readAll_text` and `Front.rfc3339?_text` say that the patterns and the profile all read
  just these fields off a front, and go on behind it;
* `Front.instant?_eq` is the instant of such fields with seconds, a fraction and an offset.

A pattern reads a number of one digit where the second one is of another script. That it does not
read the text all the same is due to what stands after the number in the pattern: no item that
follows a number can start with a digit (`StopsAtDecimal`).
-/

variable {width : Nat}

/-! ### Runs of digits -/

/-- As many digits, of any script, as their place is wide. -/
structure Run (width : Nat) where
  digits : List Char
  length_digits : digits.length = width
  isDecimal : ∀ c ∈ digits, Text.isDecimal c

/-- The number of a run, if its digits are ASCII ones. -/
def Run.value? (run : Run width) : Option Nat :=
  Text.natOfChars? run.digits

namespace Run

variable (run : Run width)

/-- A run in a place of some width starts with a digit. -/
theorem exists_cons (hwidth : 0 < width) :
    ∃ c digits, run.digits = c :: digits ∧ Text.isDecimal c = true := by
  have hlength := run.length_digits
  cases hdigits : run.digits with
  | nil =>
    rw [hdigits, List.length_nil] at hlength
    omega
  | cons c digits => exact ⟨c, digits, rfl, run.isDecimal c (hdigits ▸ List.mem_cons_self)⟩

/-- The digits of a run denote a number if they are ASCII ones. -/
theorem value?_of_isDigit (hwidth : 0 < width) (h : ∀ c ∈ run.digits, Text.isDigit c) :
    run.value? = some (Text.natOfDigits run.digits) := by
  obtain ⟨c, digits, hdigits, -⟩ := run.exists_cons hwidth
  rw [value?, Text.natOfChars?, List.all_eq_true.2 h, hdigits]
  rfl

/-- Digits of another script denote none. -/
theorem value?_of_not_isDigit (h : ¬∀ c ∈ run.digits, Text.isDigit c) : run.value? = none := by
  have hall : run.digits.all Text.isDigit = false := by
    rw [← Bool.not_eq_true, List.all_eq_true]
    exact h
  rw [value?, Text.natOfChars?, hall, Bool.and_false]
  rfl

/-- The ASCII digits at the front of a run stop at a digit of another script, if there is one. -/
theorem exists_split (h : ¬∀ c ∈ run.digits, Text.isDigit c) :
    ∃ c s, run.digits = run.digits.takeWhile Text.isDigit ++ c :: s ∧ Text.isDecimal c = true := by
  obtain ⟨c, s, hs⟩ : ∃ c s, run.digits.dropWhile Text.isDigit = c :: s :=
    List.exists_cons_of_ne_nil fun hnil => h (List.dropWhile_eq_nil_iff.1 hnil)
  have hmem : c ∈ run.digits :=
    (List.dropWhile_sublist Text.isDigit).mem (hs ▸ List.mem_cons_self)
  refine ⟨c, s, ?_, run.isDecimal c hmem⟩
  rw [← hs, List.takeWhile_append_dropWhile]

/-- The number of a run has no more digits than the run. -/
theorem value_lt {n : Nat} (h : run.value? = some n) : n < 10 ^ width := by
  by_cases hall : ∀ c ∈ run.digits, Text.isDigit c
  · rw [value?, Text.natOfChars?, Option.ite_none_right_eq_some, Option.some.injEq] at h
    have hlt := Text.natOfDigits_lt hall
    rw [run.length_digits] at hlt
    exact h.2 ▸ hlt
  · rw [run.value?_of_not_isDigit hall] at h
    cases h

/-- **A number is read off a run** with what comes after it left over. Where fewer digits than there
are would do, what comes next must not go on with a digit. -/
theorem bind_number? {α : Type} {least : Nat} {k : Nat × List Char → Option α}
    (hleast : 0 < least ∧ least ≤ width)
    (hk : least < width → ∀ n c s, Text.isDecimal c → k (n, c :: s) = none) (rest : List Char) :
    (number? least width (run.digits ++ rest)).bind k = run.value?.bind fun n => k (n, rest) := by
  have htake : (run.digits ++ rest).take width = run.digits := List.take_left' run.length_digits
  rw [number?, htake]
  by_cases hall : ∀ c ∈ run.digits, Text.isDigit c
  · have hlong : ¬run.digits.length < least := by
      rw [run.length_digits]
      omega
    rw [run.value?_of_isDigit (by omega) hall, List.takeWhile_eq_self_iff.2 hall, if_neg hlong,
      List.drop_left]
    rfl
  · obtain ⟨c, s, hsplit, hc⟩ := run.exists_split hall
    have hdrop : (run.digits ++ rest).drop (run.digits.takeWhile Text.isDigit).length =
        c :: (s ++ rest) := by
      have htext : run.digits ++ rest =
          run.digits.takeWhile Text.isDigit ++ (c :: (s ++ rest)) := by
        rw [← List.cons_append, ← List.append_assoc, ← hsplit]
      rw [htext, List.drop_left]
    have hshort : (run.digits.takeWhile Text.isDigit).length < width := by
      have hlength := congrArg List.length hsplit
      rw [List.length_append, run.length_digits, List.length_cons] at hlength
      omega
    rw [run.value?_of_not_isDigit hall, hdrop]
    by_cases hfew : (run.digits.takeWhile Text.isDigit).length < least
    · rw [if_pos hfew]
      rfl
    · rw [if_neg hfew]
      exact hk (by omega) _ c _ hc

end Run

/-- A digit is no blank. -/
theorem isBlank_of_isDecimal {c : Char} (h : Text.isDecimal c) : Text.isBlank c = false := by
  rw [← Bool.not_eq_true]
  intro hblank
  -- No range of digits has a code point in common with a range of blanks.
  have hranges : ∀ digits ∈ Text.decimalRanges, ∀ blanks ∈ Text.blankRanges,
      digits.2 < blanks.1 ∨ blanks.2 < digits.1 := by decide
  obtain ⟨digits, hdigits, hc⟩ := List.any_eq_true.1 h
  obtain ⟨blanks, hblanks, hc'⟩ := List.any_eq_true.1 hblank
  have := hranges digits hdigits blanks hblanks
  simp only [Bool.and_eq_true, decide_eq_true_eq] at hc hc'
  omega

/-- Nothing is dropped before a run. -/
theorem Run.dropBlank (run : Run width) (hwidth : 0 < width) (rest : List Char) :
    Text.dropBlank (run.digits ++ rest) = run.digits ++ rest := by
  obtain ⟨c, digits, hdigits, hc⟩ := run.exists_cons hwidth
  rw [hdigits, List.cons_append]
  exact Text.dropBlank_of_head? fun d hd => Option.some.inj hd ▸ isBlank_of_isDecimal hc

/-! ### Numbers in a pattern -/

/-- The items of a pattern read no text that starts with a digit. -/
def StopsAtDecimal (items : List Item) : Prop :=
  ∀ f c s, Text.isDecimal c → readAll f items (c :: s) = none

/-- Nothing is not the end of a pattern. -/
theorem stopsAtDecimal_nil : StopsAtDecimal [] :=
  fun _ _ _ _ => rfl

/-- A character that is no digit stops at digits. -/
theorem stopsAtDecimal_literal {c : Char} (hc : Text.isDecimal c = false) (items : List Item) :
    StopsAtDecimal (.literal c :: items) := by
  intro f d s hd
  have hne : d ≠ c := by
    rintro rfl
    exact absurd hd (by rw [hc]; exact Bool.false_ne_true)
  simp only [readAll, Item.read?, skip?, hne, decide_false, Bool.false_eq_true, if_false,
    Option.map_none, Option.bind_eq_bind, Option.bind_none]

/-- An offset does not start with a digit. -/
theorem stopsAtDecimal_offset (items : List Item) : StopsAtDecimal (.offset :: items) := by
  intro f d s hd
  have hsign : offsetSign? d = none := by
    unfold offsetSign?
    split
    · exact absurd hd (by decide)
    · exact absurd hd (by decide)
    · exact absurd hd (by decide)
    · rfl
  have hblank : Text.dropBlank (d :: s) = d :: s :=
    Text.dropBlank_of_head? fun c hc => Option.some.inj hc ▸ isBlank_of_isDecimal hd
  simp only [readAll, Item.read?, hblank, offset?, hsign, Bool.false_eq_true, false_and, if_false,
    Option.map_none, Option.bind_eq_bind, Option.bind_none]

section Items

variable {items : List Item} (hitems : StopsAtDecimal items) (f : Fields) (rest : List Char)
include hitems

/-- **A part is read off a run,** if its digits are ASCII ones. -/
theorem readAll_number (part : Part) (run : Run 2) :
    readAll f (.number part :: items) (run.digits ++ rest) =
      run.value?.bind fun n => (f.set? part n).bind fun f => readAll f items rest := by
  simp only [readAll, Item.read?, run.dropBlank (by omega), Option.bind_eq_bind, Option.bind_assoc]
  rw [run.bind_number? (by omega) (fun _ n c s hc => ?_)]
  · rfl
  · cases f.set? part n with
    | none => rfl
    | some f => exact hitems f c s hc

/-- **A year is read off a run,** if its digits are ASCII ones. -/
theorem readAll_year (run : Run 4) :
    readAll f (.year :: items) (run.digits ++ rest) =
      run.value?.bind fun n => readAll { f with year := some (n : Int) } items rest := by
  have hyear : year? (run.digits ++ rest) =
      (number? 1 4 (run.digits ++ rest)).map fun p => ((p.1 : Int), p.2) := by
    obtain ⟨c, digits, hdigits, hc⟩ := run.exists_cons (by omega)
    rw [hdigits, List.cons_append]
    unfold year?
    split
    · rename_i hsign
      exact absurd hc ((List.cons.inj hsign).1 ▸ by decide)
    · rename_i hsign
      exact absurd hc ((List.cons.inj hsign).1 ▸ by decide)
    · rfl
  simp only [readAll, Item.read?, run.dropBlank (by omega), hyear, Option.map_map,
    Option.bind_eq_bind, Option.bind_map]
  rw [run.bind_number? (by omega) (fun _ n c s hc => hitems _ c s hc)]
  rfl

end Items

/-- A character of a pattern is read off itself. -/
theorem readAll_literal (f : Fields) (c : Char) (items : List Item) (rest : List Char) :
    readAll f (.literal c :: items) (c :: rest) = readAll f items rest := by
  simp only [readAll, Item.read?, skip?, decide_true, if_true, Option.map_some,
    Option.bind_eq_bind, Option.bind_some]

/-- **A part in just two digits is read off a run,** if these are ASCII ones. -/
theorem Part.twoDigits?_run {α : Type} (part : Part) (f : Fields) (run : Run 2) (rest : List Char)
    (k : Fields × List Char → Option α) : (part.twoDigits? f (run.digits ++ rest)).bind k =
      run.value?.bind fun n => (f.set? part n).bind fun f => k (f, rest) := by
  simp only [twoDigits?, Option.bind_eq_bind, Option.bind_assoc]
  rw [run.bind_number? (by omega) (fun h => absurd h (by omega))]
  rfl

/-- A part takes the numbers within its bounds. -/
theorem Fields.set?_eq_some_iff {part : Part} {n : Nat} {f g : Fields} :
    f.set? part n = some g ↔ (part.least ≤ n ∧ n ≤ part.greatest) ∧ f.put part n = g := by
  rw [set?, Option.ite_none_right_eq_some, Option.some.injEq]

/-! ### Fronts -/

/-- The milliseconds of seconds and nanoseconds, less those of an offset. -/
def clockMs (second nanosecond : Nat) (offset : Int) : Int :=
  (second - offset) * 1000 + (nanosecond / 1000000 : Nat)

/-- The runs of digits at the front of a literal. -/
structure Front where
  year : Run 4
  month : Run 2
  day : Run 2
  hour : Run 2
  minute : Run 2

/-- What zeros of a pattern stand for is a run of digits. -/
theorem exists_run {pattern s : List Char}
    (h : matchesFront (List.replicate width '0' ++ pattern) s = true) :
    ∃ (run : Run width) (rest : List Char), s = run.digits ++ rest ∧
      matchesFront pattern rest = true := by
  induction width generalizing s with
  | zero => exact ⟨⟨[], rfl, by simp⟩, s, rfl, h⟩
  | succ width ih =>
    cases s with
    | nil => cases h
    | cons c s =>
      rw [List.replicate_succ, List.cons_append, matchesFront, if_pos rfl, Bool.and_eq_true] at h
      obtain ⟨run, rest, rfl, hrest⟩ := ih h.2
      exact ⟨⟨c :: run.digits, congrArg (· + 1) run.length_digits,
        List.forall_mem_cons.2 ⟨h.1, run.isDecimal⟩⟩, rest, rfl, hrest⟩

/-- Zeros of a pattern stand for the digits of a run. -/
theorem matchesFront_run (run : Run width) (pattern rest : List Char) :
    matchesFront (List.replicate width '0' ++ pattern) (run.digits ++ rest) =
      matchesFront pattern rest := by
  have hdigits (digits : List Char) (h : ∀ c ∈ digits, Text.isDecimal c) :
      matchesFront (List.replicate digits.length '0' ++ pattern) (digits ++ rest) =
        matchesFront pattern rest := by
    induction digits with
    | nil => rfl
    | cons c digits ih =>
      obtain ⟨hc, hdigits⟩ := List.forall_mem_cons.1 h
      rw [List.length_cons, List.replicate_succ, List.cons_append, List.cons_append, matchesFront,
        if_pos rfl, hc, Bool.true_and, ih hdigits]
  have := hdigits run.digits run.isDecimal
  rwa [run.length_digits] at this

/-- Every other character of a pattern stands for itself. -/
theorem exists_char {c : Char} {pattern s : List Char} (hc : c ≠ '0')
    (h : matchesFront (c :: pattern) s = true) :
    ∃ rest, s = c :: rest ∧ matchesFront pattern rest = true := by
  cases s with
  | nil => cases h
  | cons d s =>
    rw [matchesFront, if_neg hc, Bool.and_eq_true, decide_eq_true_eq] at h
    exact ⟨s, by rw [h.1], h.2⟩

namespace Front

/-- A front with a text after it. -/
def text (front : Front) (rest : List Char) : List Char :=
  front.year.digits ++ '-' :: (front.month.digits ++ '-' :: (front.day.digits ++ 'T' ::
    (front.hour.digits ++ ':' :: (front.minute.digits ++ rest))))

/-- The characters of the pattern. -/
theorem pattern_eq : "0000-00-00T00:00".toList = List.replicate 4 '0' ++ '-' :: '0' :: '0' :: '-' ::
    '0' :: '0' :: 'T' :: '0' :: '0' :: ':' :: '0' :: '0' :: [] := rfl

/-- **A text that looks like a literal** is a front with a text after it. -/
theorem exists_front {s : List Char} (h : looksLikeLiteral s = true) :
    ∃ (front : Front) (rest : List Char), s = front.text rest := by
  have htwo {pattern s : List Char} (h : matchesFront ('0' :: '0' :: pattern) s = true) :
      ∃ (run : Run 2) (rest : List Char), s = run.digits ++ rest ∧
        matchesFront pattern rest = true := exists_run h
  rw [looksLikeLiteral, pattern_eq] at h
  obtain ⟨year, s₁, rfl, h₁⟩ := exists_run h
  obtain ⟨s₂, rfl, h₂⟩ := exists_char (by decide) h₁
  obtain ⟨month, s₃, rfl, h₃⟩ := htwo h₂
  obtain ⟨s₄, rfl, h₄⟩ := exists_char (by decide) h₃
  obtain ⟨day, s₅, rfl, h₅⟩ := htwo h₄
  obtain ⟨s₆, rfl, h₆⟩ := exists_char (by decide) h₅
  obtain ⟨hour, s₇, rfl, h₇⟩ := htwo h₆
  obtain ⟨s₈, rfl, h₈⟩ := exists_char (by decide) h₇
  obtain ⟨minute, rest, rfl, -⟩ := htwo h₈
  exact ⟨⟨year, month, day, hour, minute⟩, rest, rfl⟩

/-- **A front looks like a literal,** whatever comes after it. -/
theorem looksLikeLiteral_text (front : Front) (rest : List Char) :
    looksLikeLiteral (front.text rest) = true := by
  have hsame (c : Char) (hc : c ≠ '0') (pattern rest : List Char) :
      matchesFront (c :: pattern) (c :: rest) = matchesFront pattern rest := by
    rw [matchesFront, if_neg hc, decide_eq_true rfl, Bool.true_and]
  have htwo (run : Run 2) (pattern rest : List Char) :
      matchesFront ('0' :: '0' :: pattern) (run.digits ++ rest) = matchesFront pattern rest :=
    matchesFront_run run pattern rest
  rw [looksLikeLiteral, pattern_eq, text, matchesFront_run, hsame _ (by decide), htwo,
    hsame _ (by decide), htwo, hsame _ (by decide), htwo, hsame _ (by decide), htwo, matchesFront]

/-- The fields of a front, if all of its digits are ASCII ones and each part can have its number. -/
def fields? (front : Front) : Option Fields := do
  let year ← front.year.value?
  let month ← front.month.value?
  let f ← Fields.set? .month month { year := some (year : Int) }
  let day ← front.day.value?
  let f ← f.set? .day day
  let hour ← front.hour.value?
  let f ← f.set? .hour hour
  let minute ← front.minute.value?
  f.set? .minute minute

/-- The items that all patterns start with. -/
def items : List Item :=
  [.year, .literal '-', .number .month, .literal '-', .number .day, .literal 'T', .number .hour,
    .literal ':', .number .minute]

/-- **Every pattern reads the fields of a front** and goes on behind it. -/
theorem readAll_text (front : Front) {tail : List Item} (htail : StopsAtDecimal tail)
    (rest : List Char) : readAll {} (items ++ tail) (front.text rest) =
      front.fields?.bind fun f => readAll f tail rest := by
  have hhyphen (items : List Item) : StopsAtDecimal (.literal '-' :: items) :=
    stopsAtDecimal_literal (by decide) items
  have hletter (items : List Item) : StopsAtDecimal (.literal 'T' :: items) :=
    stopsAtDecimal_literal (by decide) items
  have hcolon (items : List Item) : StopsAtDecimal (.literal ':' :: items) :=
    stopsAtDecimal_literal (by decide) items
  simp only [items, List.cons_append, List.nil_append, text, fields?, readAll_literal,
    readAll_year (hhyphen _), readAll_number (hhyphen _), readAll_number (hletter _),
    readAll_number (hcolon _), readAll_number htail, Option.bind_eq_bind, Option.bind_assoc]

/-- **The profile reads the fields of a front** and goes on behind it. -/
theorem rfc3339?_text (front : Front) (rest : List Char) : rfc3339? (front.text rest) =
    front.fields?.bind fun f => (rfc3339Seconds? f rest).bind Fields.zonedInstant? := by
  simp only [rfc3339?, text, colon?, Option.bind_eq_bind]
  rw [front.year.bind_number? (by omega) (fun h => absurd h (by omega))]
  simp only [skip?, decide_true, Bool.true_or, if_true, Option.bind_some, Part.twoDigits?_run,
    fields?, Option.bind_eq_bind, Option.bind_assoc]

/-- The `Z` at the end of a text stands behind its front. -/
theorem withoutZulu_text (front : Front) (rest : List Char) :
    withoutZulu (front.text rest) = front.text (withoutZulu rest) := by
  have happend (rest : List Char) : front.text rest = front.text [] ++ rest := by
    simp only [text, List.append_assoc, List.cons_append, List.nil_append]
  by_cases hrest : rest = []
  · have hrun {width : Nat} (run : Run width) : 'Z' ∉ run.digits := fun h =>
      absurd (run.isDecimal 'Z' h) (by decide)
    have hmem : 'Z' ∉ front.text [] := by simp [text, hrun]
    rw [hrest, withoutZulu, if_neg fun h => hmem (List.mem_of_getLast? h)]
    rfl
  · rw [happend rest, withoutZulu, List.getLast?_append_of_ne_nil _ hrest, withoutZulu]
    by_cases hlast : rest.getLast? = some 'Z'
    · rw [if_pos hlast, if_pos hlast, List.dropLast_append_of_ne_nil hrest, ← happend]
    · rw [if_neg hlast, if_neg hlast, ← happend]

/-! ### The instant of a front -/

/-- The fields of a front are those of a minute of a day of the years 0 to 9999. -/
theorem exists_fields {front : Front} {f : Fields} (h : front.fields? = some f) :
    ∃ year month day hour minute : Nat, year < 10000 ∧ hour ≤ 23 ∧ minute ≤ 59 ∧
      f = { year := some (year : Int), month := some month, day := some day, hour := some hour,
            minute := some minute } := by
  simp only [fields?, Option.bind_eq_bind, Option.bind_eq_some_iff, Fields.set?_eq_some_iff] at h
  obtain ⟨year, hyear, month, -, f₁, ⟨-, rfl⟩, day, -, f₂, ⟨-, rfl⟩, hour, -, f₃, ⟨hhour, rfl⟩,
    minute, -, hminute, rfl⟩ := h
  exact ⟨year, month, day, hour, minute, front.year.value_lt hyear, hhour.2, hminute.2, rfl⟩

/-- The days of the years 0 to 9999, and the days next to them, are far from the ends of the
calendar. -/
theorem supported_minute {year month day : Nat} (hyear : year < 10000)
    (hvalid : Date.Valid ⟨year, month, day⟩) {minutes : Nat} (hminutes : minutes < 1440)
    {offset : Int} (hoffset : -86400 < offset ∧ offset < 86400) :
    SupportedDay (Date.dayNumber ⟨year, month, day⟩) ∧
      Supported (ofDayAndTime (Date.dayNumber ⟨year, month, day⟩) (minutes * 60000) -
        offset * 1000) := by
  have hbounds := Date.dayNumber_bounds hvalid
  simp only at hbounds
  have hfirst : daysBeforeYear 0 ≤ daysBeforeYear year :=
    strictMono_daysBeforeYear.monotone (Int.natCast_nonneg year)
  have hlast : daysBeforeYear (year + 1) ≤ daysBeforeYear 10000 :=
    strictMono_daysBeforeYear.monotone (by omega)
  have hends : daysBeforeYear 0 = 0 ∧ daysBeforeYear 10000 = 3652425 ∧
      daysBeforeYear firstYear < -1 ∧ 3652426 < daysBeforeYear (lastYear + 1) := by decide
  constructor
  · unfold SupportedDay
    omega
  · unfold Supported SupportedDay dayOf ofDayAndTime dayMs
    omega

/-- The instant of a minute of a day of the years 0 to 9999, with seconds and an offset. -/
theorem instant?_minute {year hour minute : Nat} (month day : Nat) (hyear : year < 10000)
    (hhour : hour ≤ 23) (hminute : minute ≤ 59) (second nanosecond : Nat) (o : Option Int)
    {offset : Int} (hoffset : -86400 < offset ∧ offset < 86400) :
    Fields.instant? offset { year := some (year : Int), month := some month, day := some day,
                             hour := some hour, minute := some minute, second, nanosecond,
                             offset := o } =
      if Date.Valid ⟨year, month, day⟩ then
        some (ofDayAndTime (Date.dayNumber ⟨year, month, day⟩)
          ((hour * 60 + minute : Nat) * 60000) + clockMs second nanosecond offset)
      else none := by
  simp only [Fields.instant?, Option.bind_eq_bind, Option.bind_some]
  by_cases hvalid : Date.Valid ⟨year, month, day⟩
  · obtain ⟨hday, hstart⟩ := supported_minute hyear hvalid
      (show hour * 60 + minute < 1440 by omega) hoffset
    rw [if_pos ⟨hvalid, hday, hstart⟩, if_pos hvalid]
    congr 1
    unfold clockMs
    push_cast
    ring
  · rw [if_neg fun h => hvalid h.1, if_neg hvalid]

/-- **The instant of a front** with seconds and an offset after it is so much later than the one
of the front alone. -/
theorem instant?_eq {front : Front} {f : Fields} (h : front.fields? = some f)
    (second nanosecond : Nat) (o : Option Int) {offset : Int}
    (hoffset : -86400 < offset ∧ offset < 86400) :
    Fields.instant? offset { f with second, nanosecond, offset := o } =
      (f.instant? 0).map fun start => start + clockMs second nanosecond offset := by
  obtain ⟨year, month, day, hour, minute, hyear, hhour, hminute, rfl⟩ := exists_fields h
  rw [instant?_minute month day hyear hhour hminute second nanosecond o hoffset,
    instant?_minute month day hyear hhour hminute 0 0 none (by omega)]
  split
  · simp [clockMs]
  · rfl

end Front

end TrafficBoard.Calendar
