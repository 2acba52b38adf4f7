import Mathlib
import TrafficBoard.Proofs.Calendar.Fronts

namespace TrafficBoard.Calendar

/-!
# Tails — how the formats of a literal go on behind its front

* `clock?` reads seconds, a fraction and a zone one after the other, and `tails` says with which of
  them each of the seven readers goes on;
* `Reads` says that a reader adds what its tail reads to the instant of the front;
* `reads_zoned?`, `reads_civil?` and `reads_rfc3339?` say so of the patterns and of the profile, and
  `reads_tails` of all the readers in their order;
* `clock?_eq_some_iff` takes a tail apart, and `exists_of_concat` what it reads before a letter.

The readers differ in their tails only: whether they have seconds, of how many digits, whether with
a fraction, and what they take for a zone.
-/

/-! ### What follows the minute -/

/-- Nothing is read, and counts as zero. -/
def absent? (s : List Char) : Option (Nat × List Char) :=
  some (0, s)

/-- The seconds after a colon, in one digit or two. -/
def second? (s : List Char) : Option (Nat × List Char) := do
  let s ← colon? s
  let (n, s) ← number? 1 2 (Text.dropBlank s)
  if n ≤ 60 then some (n, s) else none

/-- The seconds after a colon, in two digits. -/
def exactSecond? (s : List Char) : Option (Nat × List Char) := do
  let s ← colon? s
  let (n, s) ← number? 2 2 s
  if n ≤ 60 then some (n, s) else none

/-- The offset that makes up a whole text. -/
def whole? (read : List Char → Option (Int × List Char)) (s : List Char) : Option Int := do
  let (offset, s) ← read s
  if s.isEmpty ∧ -86400 < offset ∧ offset < 86400 then some offset else none

/-- The offset that makes up a whole text, as a pattern reads it. -/
def wholeOffset? (s : List Char) : Option Int :=
  whole? (fun s => offset? false colons? (Text.dropBlank s)) s

/-- The offset that makes up a whole text, as the profile reads it. -/
def exactOffset? (s : List Char) : Option Int :=
  whole? (offset? true colon?) s

/-- No offset, for a text that is over. -/
def noOffset? (s : List Char) : Option Int :=
  if s.isEmpty then some 0 else none

/-- The milliseconds of seconds, a fraction and a zone that make up a text. -/
def clock? (second fraction : List Char → Option (Nat × List Char))
    (zone : List Char → Option Int) (s : List Char) : Option Int := do
  let (n, s) ← second s
  let (nanosecond, s) ← fraction s
  let offset ← zone s
  some (clockMs n nanosecond offset)

/-- How each of the readers goes on after the minute. -/
def tails : List (List Char → Option Int) :=
  [clock? exactSecond? fraction? exactOffset?, clock? absent? absent? wholeOffset?,
    clock? second? absent? wholeOffset?, clock? second? fraction? wholeOffset?,
    fun s => clock? absent? absent? noOffset? (withoutZulu s),
    fun s => clock? second? absent? noOffset? (withoutZulu s),
    fun s => clock? second? fraction? noOffset? (withoutZulu s)]

/-! ### Readers behind a front -/

/-- A reader adds what it reads after the minute of a front to the instant of the minute. -/
def Reads (reader tail : List Char → Option Int) : Prop :=
  ∀ (front : Front) rest, reader (front.text rest) =
    (front.fields?.bind (Fields.instant? 0)).bind fun start => (tail rest).map fun ms => start + ms

/-- Seconds, a fraction and what makes up the rest of the text are read one after the other behind a
front. If the rest moves the instant by an offset, it is the zone of a clock. -/
theorem reads_clock? {reader : List Char → Option Int}
    {second fraction : List Char → Option (Nat × List Char)} {zone : List Char → Option Int}
    (finish : Fields → List Char → Option Int)
    (hreader : ∀ (front : Front) rest, reader (front.text rest) = front.fields?.bind fun f =>
      (second rest).bind fun p => (fraction p.2).bind fun q =>
        finish { f with second := p.1, nanosecond := q.1 } q.2)
    (hfinish : ∀ (front : Front) f, front.fields? = some f → ∀ n nanosecond s,
      finish { f with second := n, nanosecond } s =
        (f.instant? 0).bind fun start => (zone s).map fun offset =>
          start + clockMs n nanosecond offset) :
    Reads reader (clock? second fraction zone) := by
  intro front rest
  rw [hreader]
  cases hf : front.fields? with
  | none => rfl
  | some f =>
    simp only [Option.bind_some, hfinish front f hf]
    cases hstart : f.instant? 0 with
    | none => simp
    | some start =>
      simp only [clock?, Option.bind_eq_bind, Option.bind_some, Option.map_bind]
      congr 1
      funext p
      simp only [Function.comp_def, Option.map_bind]
      congr 1
      funext q
      cases zone q.2 <;> rfl

section Finish

variable {front : Front} {f : Fields} (h : front.fields? = some f) (n nanosecond : Nat)
include h

/-- **An offset at the end of a text** moves the instant of the front before it. -/
theorem bind_zonedInstant? (read : List Char → Option (Int × List Char)) (s : List Char) :
    ((read s).bind fun p => if p.2.isEmpty then
      Fields.zonedInstant? { f with second := n, nanosecond, offset := some p.1 } else none) =
      (f.instant? 0).bind fun start => (whole? read s).map fun offset =>
        start + clockMs n nanosecond offset := by
  cases hread : read s with
  | none => simp [whole?, hread]
  | some p =>
    obtain ⟨offset, s⟩ := p
    simp only [whole?, hread, Option.bind_eq_bind, Option.bind_some, Fields.zonedInstant?]
    by_cases hempty : s.isEmpty = true
    · by_cases hoffset : -86400 < offset ∧ offset < 86400
      · rw [if_pos hempty, if_pos hoffset, if_pos ⟨hempty, hoffset⟩,
          Front.instant?_eq h n _ _ hoffset, Option.map_eq_bind]
        rfl
      · rw [if_pos hempty, if_neg hoffset, if_neg fun h => hoffset h.2]
        simp
    · rw [if_neg hempty, if_neg fun h => hempty h.1]
      simp

/-- Without an offset the text has to be over. -/
theorem instant?_of_isEmpty (s : List Char) :
    (if s.isEmpty then Fields.instant? 0 { f with second := n, nanosecond } else none) =
      (f.instant? 0).bind fun start => (noOffset? s).map fun offset =>
        start + clockMs n nanosecond offset := by
  by_cases hempty : s.isEmpty = true
  · rw [if_pos hempty, noOffset?, if_pos hempty,
      Front.instant?_eq h n nanosecond f.offset (by omega), Option.map_eq_bind]
    rfl
  · rw [if_neg hempty, noOffset?, if_neg hempty]
    simp

end Finish

/-! ### Patterns -/

/-- The items of a pattern read seconds and a fraction before its last items. -/
def ReadClock (second fraction : List Char → Option (Nat × List Char))
    (items last : List Item) : Prop :=
  ∀ (f : Fields) s, f.second = 0 → f.nanosecond = 0 → readAll f items s =
    (second s).bind fun p => (fraction p.2).bind fun q =>
      readAll { f with second := p.1, nanosecond := q.1 } last q.2

section Patterns

variable (last : List Item)

/-- A pattern without seconds. -/
theorem readClock_minute : ReadClock absent? absent? last last := by
  rintro ⟨year, month, day, hour, minute, second, nanosecond, offset⟩ s rfl rfl
  rfl

/-- A pattern with seconds. -/
theorem readClock_second :
    ReadClock second? absent? (.literal ':' :: .number .second :: last) last := by
  rintro ⟨year, month, day, hour, minute, second, nanosecond, offset⟩ s rfl rfl
  simp only [readAll, Item.read?, second?, colon?, absent?, Option.bind_eq_bind, Option.bind_assoc,
    Option.bind_map, Function.comp_def, Option.bind_some]
  congr 1
  funext s
  congr 1
  funext p
  by_cases hn : p.1 ≤ 60
  · simp [Fields.set?, Part.least, Part.greatest, Fields.put, hn]
  · simp [Fields.set?, Part.least, Part.greatest, hn]

/-- A pattern with seconds and a fraction. -/
theorem readClock_fraction :
    ReadClock second? fraction? (.literal ':' :: .number .second :: .fraction :: last) last := by
  intro f s hsecond hnanosecond
  rw [readClock_second (.fraction :: last) f s hsecond hnanosecond]
  simp only [absent?, Option.bind_some, readAll, Item.read?, Option.bind_eq_bind, Option.bind_map,
    Function.comp_def]

end Patterns

/-- A text has to be over where a pattern is. -/
theorem readAll_nil (f : Fields) (s : List Char) :
    readAll f [] s = if s.isEmpty then some f else none := by
  cases s <;> rfl

section Readers

variable {second fraction : List Char → Option (Nat × List Char)} {pattern : String}
  {items last : List Item} (hstops : StopsAtDecimal items)
  (hpattern : items? pattern.toList = some (Front.items ++ items))
include hstops hpattern

/-- A pattern reads a front, seconds, a fraction and its last items one after the other. -/
theorem bind_fields?_text (hclock : ReadClock second fraction items last)
    (instant : Fields → Option Int) (front : Front) (rest : List Char) :
    (fields? pattern (front.text rest)).bind instant = front.fields?.bind fun f =>
      (second rest).bind fun p => (fraction p.2).bind fun q =>
        (readAll { f with second := p.1, nanosecond := q.1 } last q.2).bind instant := by
  simp only [fields?, hpattern, Option.bind_eq_bind, Option.bind_some, front.readAll_text hstops]
  cases hf : front.fields? with
  | none => rfl
  | some f =>
    have hzero : f.second = 0 ∧ f.nanosecond = 0 := by
      obtain ⟨year, month, day, hour, minute, -, -, -, rfl⟩ := Front.exists_fields hf
      exact ⟨rfl, rfl⟩
    simp only [Option.bind_some, hclock f rest hzero.1 hzero.2, Option.bind_assoc]

/-- **A pattern with an offset** goes on with a clock. -/
theorem reads_zoned? (hclock : ReadClock second fraction items [.offset]) :
    Reads (zoned? pattern) (clock? second fraction wholeOffset?) := by
  refine reads_clock? (fun f s => (readAll f [.offset] s).bind Fields.zonedInstant?)
    (bind_fields?_text hstops hpattern hclock Fields.zonedInstant?) ?_
  intro front f hf n nanosecond s
  rw [wholeOffset?, ← bind_zonedInstant? hf]
  simp only [readAll, readAll_nil, Item.read?, Option.bind_eq_bind, Option.bind_map,
    Option.bind_assoc, Function.comp_def]
  congr 1
  funext p
  split
  · rfl
  · rfl

/-- **A pattern without an offset** goes on with a clock of no offset. -/
theorem reads_civil? (hclock : ReadClock second fraction items []) :
    Reads (civil? pattern) (clock? second fraction noOffset?) := by
  refine reads_clock? (fun f s => (readAll f [] s).bind (Fields.instant? 0))
    (bind_fields?_text hstops hpattern hclock (Fields.instant? 0)) ?_
  intro front f hf n nanosecond s
  rw [← instant?_of_isEmpty hf, readAll_nil]
  split
  · rfl
  · rfl

end Readers

/-- **The profile** goes on with a clock. -/
theorem reads_rfc3339? : Reads rfc3339? (clock? exactSecond? fraction? exactOffset?) := by
  refine reads_clock? (fun f s => (offset? true colon? s).bind fun p =>
    if p.2.isEmpty then Fields.zonedInstant? { f with offset := some p.1 } else none) ?_
    fun front f hf n nanosecond s => bind_zonedInstant? hf n nanosecond _ s
  intro front rest
  rw [front.rfc3339?_text]
  cases hf : front.fields? with
  | none => rfl
  | some f =>
    simp only [Option.bind_some, rfc3339Seconds?, exactSecond?, Part.twoDigits?,
      Option.bind_eq_bind, Option.bind_assoc]
    congr 1
    funext s
    congr 1
    funext p
    by_cases hn : p.1 ≤ 60
    · simp only [Fields.set?, Part.least, Part.greatest, Fields.put, hn, Nat.zero_le, and_self,
        if_true, Option.bind_some]
      congr 1
      funext p
      congr 1
      funext q
      split
      · rfl
      · rfl
    · simp [Fields.set?, Part.least, Part.greatest, hn]

/-- **Each reader goes on with its tail.** -/
theorem reads_tails : List.Forall₂ Reads readers tails := by
  have hcolon (items : List Item) : StopsAtDecimal (.literal ':' :: items) :=
    stopsAtDecimal_literal (by decide) items
  have hcivil {pattern : String} {tail : List Char → Option Int} (h : Reads (civil? pattern) tail) :
      Reads (fun s => civil? pattern (withoutZulu s)) fun s => tail (withoutZulu s) := by
    intro front rest
    simp only [Front.withoutZulu_text]
    exact h front (withoutZulu rest)
  exact .cons reads_rfc3339? <|
    .cons (reads_zoned? (stopsAtDecimal_offset _) rfl (readClock_minute _)) <|
    .cons (reads_zoned? (hcolon _) rfl (readClock_second _)) <|
    .cons (reads_zoned? (hcolon _) rfl (readClock_fraction _)) <|
    .cons (hcivil (reads_civil? stopsAtDecimal_nil rfl (readClock_minute _))) <|
    .cons (hcivil (reads_civil? (hcolon _) rfl (readClock_second _))) <|
    .cons (hcivil (reads_civil? (hcolon _) rfl (readClock_fraction _))) .nil

/-! ### Pieces of a tail -/

/-- What a clock reads, piece by piece. -/
theorem clock?_eq_some_iff {second fraction : List Char → Option (Nat × List Char)}
    {zone : List Char → Option Int} {s : List Char} {ms : Int} :
    clock? second fraction zone s = some ms ↔ ∃ n r nanosecond r' offset,
      second s = some (n, r) ∧ fraction r = some (nanosecond, r') ∧ zone r' = some offset ∧
        clockMs n nanosecond offset = ms := by
  simp only [clock?, Option.bind_eq_bind, Option.bind_eq_some_iff, Prod.exists, Option.some.injEq]
  constructor
  · rintro ⟨n, r, hsecond, nanosecond, r', hfraction, offset, hzone, hms⟩
    exact ⟨n, r, nanosecond, r', offset, hsecond, hfraction, hzone, hms⟩
  · rintro ⟨n, r, nanosecond, r', offset, hsecond, hfraction, hzone, hms⟩
    exact ⟨n, r, hsecond, nanosecond, r', hfraction, offset, hzone, hms⟩

/-- No offset leaves nothing of a text. -/
theorem noOffset?_eq_some_iff {s : List Char} {offset : Int} :
    noOffset? s = some offset ↔ s = [] ∧ offset = 0 := by
  cases s with
  | nil => simp [noOffset?, eq_comm]
  | cons c s => simp [noOffset?]

section Numbers

variable {least most : Nat} {s : List Char} {p : Nat × List Char}

/-- A number starts with a digit. -/
theorem exists_digit_of_number? (hleast : 0 < least) (h : number? least most s = some p) :
    ∃ c rest, s = c :: rest ∧ Text.isDigit c = true := by
  rw [number?] at h
  split at h
  · cases h
  · rename_i hlong
    cases s with
    | nil => simp at hlong; omega
    | cons c rest =>
      refine ⟨c, rest, rfl, ?_⟩
      by_contra hc
      cases most with
      | zero => simp at hlong; omega
      | succ most =>
        rw [List.take_succ_cons, List.takeWhile_cons_of_neg hc, List.length_nil] at hlong
        omega

/-- What has enough digits has enough where fewer are asked for. -/
theorem number?_of_le {least' : Nat} (hle : least' ≤ least) (h : number? least most s = some p) :
    number? least' most s = some p := by
  rw [number?] at h ⊢
  split at h
  · cases h
  · rw [if_neg (by omega)]
    exact h

end Numbers

/-- Seconds in two digits are seconds. -/
theorem second?_of_exactSecond? {s : List Char} {p : Nat × List Char}
    (h : exactSecond? s = some p) : second? s = some p := by
  simp only [exactSecond?, Option.bind_eq_bind, Option.bind_eq_some_iff] at h
  obtain ⟨r, hcolon, q, hnumber, hbound⟩ := h
  obtain ⟨c, rest, rfl, hc⟩ := exists_digit_of_number? (by omega) hnumber
  have hblank : Text.dropBlank (c :: rest) = c :: rest :=
    Text.dropBlank_of_head? fun d hd => Option.some.inj hd ▸ Text.isBlank_of_isDigit hc
  simp only [second?, hcolon, Option.bind_eq_bind, Option.bind_some, hblank,
    number?_of_le (show 1 ≤ 2 by omega) hnumber]
  exact hbound

/-- A colon before a number is all that a pattern takes for colons and blanks. -/
theorem colons?_of_colon? {least most : Nat} {s t : List Char} {p : Nat × List Char}
    (hleast : 0 < least) (hcolon : colon? s = some t) (hnumber : number? least most t = some p) :
    colons? s = some t := by
  obtain ⟨d, rest, rfl, hd⟩ := exists_digit_of_number? hleast hnumber
  have hstop : (decide (d = ':') || Text.isBlank d) = false := by
    rw [Text.isBlank_of_isDigit hd, Bool.or_false, decide_eq_false_iff_not]
    rintro rfl
    exact absurd hd (by decide)
  cases s with
  | nil => cases hcolon
  | cons c s =>
    rw [colon?, skip?, Option.ite_none_right_eq_some, decide_eq_true_eq,
      Option.some.injEq] at hcolon
    obtain ⟨rfl, rfl⟩ := hcolon
    rw [colons?, List.dropWhile_cons_of_pos (by decide),
      List.dropWhile_cons_of_neg (by rw [hstop]; exact Bool.false_ne_true)]

/-- **An offset by the profile is one by a pattern,** if it is not a letter. -/
theorem offset?_of_profile {c : Char} {s : List Char} {p : Int × List Char}
    (hletter : ¬(c = 'Z' ∨ c = 'z')) (h : offset? true colon? (c :: s) = some p) :
    offset? false colons? (Text.dropBlank (c :: s)) = some p := by
  simp only [offset?, hletter, and_false, if_false, Option.bind_eq_bind,
    Option.bind_eq_some_iff] at h
  obtain ⟨sign, hsign, q, hhours, r, hcolon, q', hminutes, hbound⟩ := h
  have hblank : Text.dropBlank (c :: s) = c :: s := by
    refine Text.dropBlank_of_head? fun d hd => Option.some.inj hd ▸ ?_
    unfold offsetSign? at hsign
    split at hsign
    · decide
    · decide
    · decide
    · cases hsign
  have hcolons := colons?_of_colon? (by omega) hcolon hminutes
  simp only [hblank, offset?, hsign, hhours, hcolons, hminutes, Bool.false_eq_true, false_and,
    if_false, Option.bind_eq_bind, Option.bind_some]
  exact hbound

/-- What makes up a whole text leaves nothing of it. -/
theorem whole?_eq_some_iff {read : List Char → Option (Int × List Char)} {s : List Char}
    {offset : Int} : whole? read s = some offset ↔
      read s = some (offset, []) ∧ -86400 < offset ∧ offset < 86400 := by
  simp only [whole?, Option.bind_eq_bind, Option.bind_eq_some_iff]
  constructor
  · rintro ⟨⟨o, rest⟩, hread, hwhole⟩
    by_cases hbounds : rest.isEmpty ∧ -86400 < o ∧ o < 86400
    · rw [if_pos hbounds] at hwhole
      obtain rfl : o = offset := Option.some.inj hwhole
      rw [List.isEmpty_iff.1 hbounds.1] at hread
      exact ⟨hread, hbounds.2⟩
    · rw [if_neg hbounds] at hwhole
      cases hwhole
  · rintro ⟨hread, hbounds⟩
    exact ⟨_, hread, if_pos ⟨rfl, hbounds⟩⟩

/-- The zone of the profile is a letter for no offset, or an offset by a pattern. -/
theorem exactOffset?_cases {s : List Char} {offset : Int} (h : exactOffset? s = some offset) :
    (s = ['Z'] ∨ s = ['z']) ∧ offset = 0 ∨ wholeOffset? s = some offset := by
  obtain ⟨hread, hbounds⟩ := whole?_eq_some_iff.1 h
  cases s with
  | nil => cases hread
  | cons c s =>
    by_cases hletter : c = 'Z' ∨ c = 'z'
    · left
      rw [offset?, if_pos ⟨rfl, hletter⟩, Option.some.injEq, Prod.mk.injEq] at hread
      obtain ⟨rfl, rfl⟩ := hread
      exact ⟨hletter.imp (congrArg (· :: [])) (congrArg (· :: [])), rfl⟩
    · right
      exact whole?_eq_some_iff.2 ⟨offset?_of_profile hletter hread, hbounds⟩

/-- An offset starts with a blank or with a sign. -/
theorem head?_of_wholeOffset? {s : List Char} {offset : Int} (h : wholeOffset? s = some offset) :
    ∃ c rest, s = c :: rest ∧ (Text.isBlank c = true ∨ (offsetSign? c).isSome = true) := by
  obtain ⟨hread, -⟩ := whole?_eq_some_iff.1 h
  cases s with
  | nil => cases hread
  | cons c s =>
    refine ⟨c, s, rfl, ?_⟩
    by_cases hblank : Text.isBlank c = true
    · exact .inl hblank
    · right
      rw [Text.dropBlank, List.dropWhile_cons_of_neg hblank] at hread
      simp only [offset?, Bool.false_eq_true, false_and, if_false, Option.bind_eq_bind,
        Option.bind_eq_some_iff] at hread
      obtain ⟨sign, hsign, -⟩ := hread
      exact Option.isSome_of_mem hsign

/-! ### The letter at the end -/

/-- A text that does not start with a point has no fraction. -/
theorem fraction?_of_head? {s : List Char} (h : '.' ∉ s.head?) : fraction? s = some (0, s) := by
  unfold fraction?
  split
  · exact absurd rfl h
  · rfl

section Concat

variable (s : List Char)

/-- A run at the front of a text does not reach a character behind the text that it cannot have. -/
theorem takeWhile_concat {p : Char → Bool} {c : Char} (hc : p c = false) :
    (s ++ [c]).takeWhile p = s.takeWhile p := by
  induction s with
  | nil => simp [hc]
  | cons d s ih => simp only [List.cons_append, List.takeWhile_cons, ih]

/-- What is left after a run keeps such a character. -/
theorem dropWhile_concat {p : Char → Bool} {c : Char} (hc : p c = false) :
    (s ++ [c]).dropWhile p = s.dropWhile p ++ [c] := by
  induction s with
  | nil => simp [hc]
  | cons d s ih =>
    simp only [List.cons_append, List.dropWhile_cons, ih]
    split
    · rfl
    · rfl

/-- A letter behind a text does not change the number at its front. -/
theorem number?_concat (least most : Nat) : number? least most (s ++ ['Z']) =
    (number? least most s).map fun p => (p.1, p.2 ++ ['Z']) := by
  have hdigits : ((s ++ ['Z']).take most).takeWhile Text.isDigit =
      (s.take most).takeWhile Text.isDigit := by
    rcases Nat.lt_or_ge s.length most with hlong | hshort
    · rw [List.take_of_length_le (by simpa using hlong), List.take_of_length_le hlong.le,
        takeWhile_concat s (by decide)]
    · rw [List.take_append_of_le_length hshort]
  have hle : ((s.take most).takeWhile Text.isDigit).length ≤ s.length :=
    ((List.takeWhile_sublist _).trans (List.take_sublist _ _)).length_le
  simp only [number?, hdigits, List.drop_append_of_le_length hle]
  split
  · rfl
  · rfl

/-- A letter behind a text does not change the seconds at its front. -/
theorem second?_concat : second? (s ++ ['Z']) =
    (second? s).map fun p => (p.1, p.2 ++ ['Z']) := by
  cases s with
  | nil => rfl
  | cons c s =>
    simp only [second?, colon?, skip?, List.cons_append, Option.bind_eq_bind]
    by_cases hc : decide (c = ':') = true
    · rw [if_pos hc, if_pos hc, Option.bind_some, Option.bind_some, Text.dropBlank,
        dropWhile_concat s (by decide), number?_concat, ← Text.dropBlank]
      cases number? 1 2 (Text.dropBlank s) with
      | none => rfl
      | some p =>
        simp only [Option.map_some, Option.bind_some]
        split
        · rfl
        · rfl
    · rw [if_neg hc, if_neg hc]
      rfl

/-- A letter behind a text does not change the fraction at its front. -/
theorem fraction?_concat : fraction? (s ++ ['Z']) =
    (fraction? s).map fun p => (p.1, p.2 ++ ['Z']) := by
  cases s with
  | nil => rfl
  | cons c s =>
    by_cases hc : c = '.'
    · rw [hc, List.cons_append]
      simp only [fraction?, takeWhile_concat s (show Text.isDigit 'Z' = false by decide),
        dropWhile_concat s (show Text.isDigit 'Z' = false by decide)]
      split
      · rfl
      · rfl
    · rw [List.cons_append, fraction?_of_head? (by simpa using hc),
        fraction?_of_head? (by simpa using hc)]
      rfl

end Concat

/-- The letter is dropped from the end of a text if it is there. -/
theorem withoutZulu_cases (s : List Char) : s = withoutZulu s ∨ s = withoutZulu s ++ ['Z'] := by
  by_cases hlast : s.getLast? = some 'Z'
  · right
    rw [withoutZulu, if_pos hlast, List.dropLast_append_getLast? 'Z' hlast]
  · left
    rw [withoutZulu, if_neg hlast]

/-- Seconds and a fraction at the front of a text do not reach a letter at its end. -/
theorem exists_of_concat {s r r' : List Char} {n nanosecond : Nat}
    (hsecond : second? (s ++ ['Z']) = some (n, r))
    (hfraction : fraction? r = some (nanosecond, r')) :
    ∃ t t', second? s = some (n, t) ∧ fraction? t = some (nanosecond, t') ∧ r' = t' ++ ['Z'] := by
  rw [second?_concat, Option.map_eq_some_iff] at hsecond
  obtain ⟨⟨n', t⟩, hsecond, heq⟩ := hsecond
  obtain ⟨rfl, rfl⟩ := Prod.mk.inj heq
  rw [fraction?_concat, Option.map_eq_some_iff] at hfraction
  obtain ⟨⟨nanosecond', t'⟩, hfraction, heq⟩ := hfraction
  obtain ⟨rfl, rfl⟩ := Prod.mk.inj heq
  exact ⟨t, t', hsecond, hfraction, rfl⟩

/-- Seconds are read off the front of a text. -/
theorem suffix_of_second? {s r : List Char} {n : Nat} (h : second? s = some (n, r)) : r <:+ s := by
  simp only [second?, colon?, Option.bind_eq_bind, Option.bind_eq_some_iff] at h
  obtain ⟨t, hcolon, p, hnumber, hbound⟩ := h
  have ht : t <:+ s := by
    cases s with
    | nil => cases hcolon
    | cons c s =>
      rw [skip?, Option.ite_none_right_eq_some, Option.some.injEq] at hcolon
      exact hcolon.2 ▸ List.suffix_cons c s
  have hp : p.2 <:+ Text.dropBlank t := by
    rw [number?, Option.ite_none_left_eq_some, Option.some.injEq] at hnumber
    exact hnumber.2 ▸ List.drop_suffix _ _
  have hr : p.2 = r := by
    rw [Option.ite_none_right_eq_some, Option.some.injEq] at hbound
    exact congrArg Prod.snd hbound.2
  exact hr ▸ (hp.trans (List.dropWhile_suffix _)).trans ht

/-- A fraction is read off the front of a text. -/
theorem suffix_of_fraction? {s r : List Char} {nanosecond : Nat}
    (h : fraction? s = some (nanosecond, r)) : r <:+ s := by
  unfold fraction? at h
  split at h
  · rw [Option.ite_none_left_eq_some, Option.some.injEq] at h
    obtain ⟨-, hr⟩ := Prod.mk.inj h.2
    exact hr ▸ (List.dropWhile_suffix _).trans (List.suffix_cons _ _)
  · exact (Prod.mk.inj (Option.some.inj h)).2 ▸ List.suffix_refl _

end TrafficBoard.Calendar
