import Mathlib
import TrafficBoard.Proofs.Calendar.Tails

namespace TrafficBoard.Calendar

/-!
# One pass — date-time literals read without trying one format after another

* `seconds?` reads what follows the minute by looking at the next character, and `literal?` reads a
  literal with it;
* `seconds?_of_tail` says that a format that goes on behind a front reads what `seconds?` does, and
  `exists_tail` that some format reads what `seconds?` reads;
* `parse?_eq_literal?` follows: the formats do not contradict each other, so the first of them that
  reads a text is as good as any other.
-/

/-! ### The one-pass reader -/

/-- The offset of a zone that makes up a whole text, or of no zone. A lower-case letter for no
offset is not always allowed. -/
def zone? (lower : Bool) : List Char → Option Int
  | [] => some 0
  | ['Z'] => some 0
  | ['z'] => if lower then some 0 else none
  | s => wholeOffset? s

/-- The milliseconds that are read after the minute. The lower-case letter goes with seconds in two
digits. -/
def seconds? (s : List Char) : Option Int :=
  match s with
  | ':' :: _ => clock? second? fraction? (zone? (exactSecond? s).isSome) s
  | _ => clock? absent? absent? (zone? false) s

/-- The instant of a literal, read in one pass. -/
def literal? (s : List Char) : Option Int := do
  let (year, s) ← number? 4 4 s
  let s ← skip? (fun c => c = '-') s
  let (f, s) ← Part.month.twoDigits? { year := some year } s
  let s ← skip? (fun c => c = '-') s
  let (f, s) ← Part.day.twoDigits? f s
  let s ← skip? (fun c => c = 'T') s
  let (f, s) ← Part.hour.twoDigits? f s
  let s ← colon? s
  let (f, s) ← Part.minute.twoDigits? f s
  let start ← f.instant? 0
  let ms ← seconds? s
  some (start + ms)

/-- **The one-pass reader** goes on with `seconds?`. -/
theorem reads_literal? : Reads literal? seconds? := by
  intro front rest
  simp only [literal?, Front.text, colon?, Option.bind_eq_bind]
  rw [front.year.bind_number? (by omega) (fun h => absurd h (by omega))]
  simp only [skip?, decide_true, if_true, Option.bind_some, Part.twoDigits?_run, Front.fields?,
    Option.bind_eq_bind, Option.bind_assoc, Option.map_eq_bind, Function.comp_def]

/-! ### Zones -/

section Zones

variable {lower : Bool} {s : List Char} {offset : Int}

/-- A text that starts with neither letter has to be an offset. -/
theorem zone?_cons {c : Char} (hupper : c ≠ 'Z') (hlower : c ≠ 'z') :
    zone? lower (c :: s) = wholeOffset? (c :: s) := by
  unfold zone?
  split
  all_goals simp_all

/-- An offset is a zone. -/
theorem zone?_of_wholeOffset? (h : wholeOffset? s = some offset) : zone? lower s = some offset := by
  obtain ⟨c, rest, rfl, hc⟩ := head?_of_wholeOffset? h
  rw [zone?_cons, h]
  · rintro rfl
    exact absurd hc (by decide)
  · rintro rfl
    exact absurd hc (by decide)

/-- A zone is nothing, a letter or an offset. -/
theorem zone?_cases (h : zone? lower s = some offset) :
    (s = [] ∨ s = ['Z'] ∨ s = ['z'] ∧ lower = true) ∧ offset = 0 ∨
      wholeOffset? s = some offset := by
  unfold zone? at h
  split at h
  · exact .inl ⟨.inl rfl, (Option.some.inj h).symm⟩
  · exact .inl ⟨.inr (.inl rfl), (Option.some.inj h).symm⟩
  · split at h
    · rename_i hlower
      exact .inl ⟨.inr (.inr ⟨rfl, hlower⟩), (Option.some.inj h).symm⟩
    · cases h
  · exact .inr h

end Zones

/-! ### One pass and the formats -/

/-- Seconds start with a colon, so they are read before the zone. -/
theorem seconds?_of_second? {s r r' : List Char} {n nanosecond : Nat} {offset : Int}
    (hsecond : second? s = some (n, r)) (hfraction : fraction? r = some (nanosecond, r'))
    (hzone : zone? (exactSecond? s).isSome r' = some offset) :
    seconds? s = some (clockMs n nanosecond offset) := by
  unfold seconds?
  split
  · exact clock?_eq_some_iff.2 ⟨n, r, nanosecond, r', offset, hsecond, hfraction, hzone, rfl⟩
  · rename_i hcolon
    cases s with
    | nil => cases hsecond
    | cons c s =>
      simp only [second?, colon?, skip?, Option.bind_eq_bind, Option.bind_eq_some_iff,
        Option.ite_none_right_eq_some] at hsecond
      obtain ⟨t, ⟨hc, -⟩, -⟩ := hsecond
      exact absurd (by rw [of_decide_eq_true hc]) (hcolon s)

/-- A text that does not start with a colon is just a zone. -/
theorem seconds?_of_head? {s : List Char} (h : ':' ∉ s.head?) :
    seconds? s = (zone? false s).map fun offset => clockMs 0 0 offset := by
  unfold seconds?
  split
  · exact absurd rfl h
  · simp only [clock?, absent?, Option.bind_eq_bind, Option.bind_some, Option.map_eq_bind]
    rfl

section Formats

variable {s r r' : List Char} {n nanosecond : Nat} {offset ms : Int}

/-- What the profile reads, with a letter in either case for no offset. -/
theorem seconds?_of_profile (h : clock? exactSecond? fraction? exactOffset? s = some ms) :
    seconds? s = some ms := by
  obtain ⟨n, r, nanosecond, r', offset, hsecond, hfraction, hzone, rfl⟩ := clock?_eq_some_iff.1 h
  refine seconds?_of_second? (second?_of_exactSecond? hsecond) hfraction ?_
  rw [hsecond, Option.isSome_some]
  rcases exactOffset?_cases hzone with ⟨rfl | rfl, rfl⟩ | hzone
  · rfl
  · rfl
  · exact zone?_of_wholeOffset? hzone

/-- An offset right after the minute. -/
theorem seconds?_of_wholeOffset? (h : wholeOffset? s = some offset) :
    seconds? s = some (clockMs 0 0 offset) := by
  obtain ⟨c, rest, rfl, hc⟩ := head?_of_wholeOffset? h
  have hcolon : ':' ∉ (c :: rest).head? := by
    rintro ⟨⟩
    exact absurd hc (by decide)
  rw [seconds?_of_head? hcolon, zone?_of_wholeOffset? h, Option.map_some]

/-- Seconds and a fraction without an offset leave nothing for the zone, or the letter. -/
theorem seconds?_of_withoutZulu (hsecond : second? (withoutZulu s) = some (n, r))
    (hfraction : fraction? r = some (nanosecond, [])) :
    seconds? s = some (clockMs n nanosecond 0) := by
  rcases withoutZulu_cases s with hs | hs
  · rw [← hs] at hsecond
    exact seconds?_of_second? hsecond hfraction rfl
  · have hsecond' := second?_concat (withoutZulu s)
    have hfraction' := fraction?_concat r
    rw [← hs, hsecond] at hsecond'
    rw [hfraction] at hfraction'
    exact seconds?_of_second? hsecond' hfraction' rfl

/-- **A format reads what one pass reads.** -/
theorem seconds?_of_tail {tail : List Char → Option Int} (htail : tail ∈ tails)
    (h : tail s = some ms) : seconds? s = some ms := by
  simp only [tails, List.mem_cons, List.not_mem_nil, or_false] at htail
  rcases htail with rfl | rfl | rfl | rfl | rfl | rfl | rfl
  · exact seconds?_of_profile h
  -- The patterns with an offset: right after the minute, after seconds, after a fraction.
  · obtain ⟨n, r, nanosecond, r', offset, ⟨⟩, ⟨⟩, hzone, rfl⟩ := clock?_eq_some_iff.1 h
    exact seconds?_of_wholeOffset? hzone
  · obtain ⟨n, r, nanosecond, r', offset, hsecond, ⟨⟩, hzone, rfl⟩ := clock?_eq_some_iff.1 h
    obtain ⟨c, rest, rfl, hc⟩ := head?_of_wholeOffset? hzone
    have hpoint : '.' ∉ (c :: rest).head? := by
      rintro ⟨⟩
      exact absurd hc (by decide)
    exact seconds?_of_second? hsecond (fraction?_of_head? hpoint) (zone?_of_wholeOffset? hzone)
  · obtain ⟨n, r, nanosecond, r', offset, hsecond, hfraction, hzone, rfl⟩ := clock?_eq_some_iff.1 h
    exact seconds?_of_second? hsecond hfraction (zone?_of_wholeOffset? hzone)
  -- The patterns without one, in the same order.
  · obtain ⟨n, r, nanosecond, r', offset, ⟨⟩, ⟨⟩, hzone, rfl⟩ := clock?_eq_some_iff.1 h
    obtain ⟨hnil, rfl⟩ := noOffset?_eq_some_iff.1 hzone
    rcases withoutZulu_cases s with hs | hs
    · rw [hs, hnil]
      rfl
    · rw [hs, hnil]
      rfl
  · obtain ⟨n, r, nanosecond, r', offset, hsecond, ⟨⟩, hzone, rfl⟩ := clock?_eq_some_iff.1 h
    obtain ⟨rfl, rfl⟩ := noOffset?_eq_some_iff.1 hzone
    exact seconds?_of_withoutZulu hsecond rfl
  · obtain ⟨n, r, nanosecond, r', offset, hsecond, hfraction, hzone, rfl⟩ := clock?_eq_some_iff.1 h
    obtain ⟨rfl, rfl⟩ := noOffset?_eq_some_iff.1 hzone
    exact seconds?_of_withoutZulu hsecond hfraction

/-- Seconds, a fraction and a zone are read by the profile, or by a pattern with both. -/
theorem exists_tail_of_second? (hsecond : second? s = some (n, r))
    (hfraction : fraction? r = some (nanosecond, r'))
    (hzone : zone? (exactSecond? s).isSome r' = some offset) :
    ∃ tail ∈ tails, tail s = some (clockMs n nanosecond offset) := by
  -- A pattern without an offset reads what leaves nothing for the zone but the letter.
  have hcivil {t t' : List Char} (hsecond : second? (withoutZulu s) = some (n, t))
      (hfraction : fraction? t = some (nanosecond, t')) (ht : t' = []) (hoffset : offset = 0) :
      ∃ tail ∈ tails, tail s = some (clockMs n nanosecond offset) :=
    ⟨fun s => clock? second? fraction? noOffset? (withoutZulu s), by simp [tails],
      clock?_eq_some_iff.2 ⟨n, t, nanosecond, t', offset, hsecond, hfraction,
        noOffset?_eq_some_iff.2 ⟨ht, hoffset⟩, rfl⟩⟩
  rcases zone?_cases hzone with ⟨rfl | rfl | ⟨rfl, hexact⟩, rfl⟩ | hzone
  · have hs := (withoutZulu_cases s).resolve_right fun hs => by
      rw [hs] at hsecond
      obtain ⟨t, t', -, -, ht⟩ := exists_of_concat hsecond hfraction
      simp at ht
    exact hcivil (hs ▸ hsecond) hfraction rfl rfl
  · have hlast : s.getLast? = some 'Z' := by
      obtain ⟨t, ht⟩ := (suffix_of_fraction? hfraction).trans (suffix_of_second? hsecond)
      rw [← ht, List.getLast?_concat]
    have hs : s = withoutZulu s ++ ['Z'] := by
      rw [withoutZulu, if_pos hlast, List.dropLast_append_getLast? 'Z' hlast]
    rw [hs] at hsecond
    obtain ⟨t, t', hsecond, hfraction, ht⟩ := exists_of_concat hsecond hfraction
    exact hcivil hsecond hfraction (List.self_eq_append_left.1 ht) rfl
  · obtain ⟨p, hp⟩ := Option.isSome_iff_exists.1 hexact
    obtain rfl : p = (n, r) := Option.some.inj ((second?_of_exactSecond? hp).symm.trans hsecond)
    exact ⟨clock? exactSecond? fraction? exactOffset?, by simp [tails],
      clock?_eq_some_iff.2 ⟨n, r, nanosecond, ['z'], 0, hp, hfraction, rfl, rfl⟩⟩
  · exact ⟨clock? second? fraction? wholeOffset?, by simp [tails],
      clock?_eq_some_iff.2 ⟨n, r, nanosecond, r', offset, hsecond, hfraction, hzone, rfl⟩⟩

/-- A zone right after the minute is read by a pattern without seconds. -/
theorem exists_tail_of_zone? (hzone : zone? false s = some offset) :
    ∃ tail ∈ tails, tail s = some (clockMs 0 0 offset) := by
  have hcivil (hs : withoutZulu s = []) (hoffset : offset = 0) :
      ∃ tail ∈ tails, tail s = some (clockMs 0 0 offset) :=
    ⟨fun s => clock? absent? absent? noOffset? (withoutZulu s), by simp [tails],
      clock?_eq_some_iff.2 ⟨0, _, 0, _, offset, rfl, rfl,
        noOffset?_eq_some_iff.2 ⟨hs, hoffset⟩, rfl⟩⟩
  rcases zone?_cases hzone with ⟨rfl | rfl | ⟨-, hlower⟩, rfl⟩ | hzone
  · exact hcivil rfl rfl
  · exact hcivil rfl rfl
  · cases hlower
  · exact ⟨clock? absent? absent? wholeOffset?, by simp [tails],
      clock?_eq_some_iff.2 ⟨0, s, 0, s, offset, rfl, rfl, hzone, rfl⟩⟩

/-- **Some format reads what one pass reads.** -/
theorem exists_tail (h : seconds? s = some ms) : ∃ tail ∈ tails, tail s = some ms := by
  unfold seconds? at h
  split at h
  · obtain ⟨n, r, nanosecond, r', offset, hsecond, hfraction, hzone, rfl⟩ :=
      clock?_eq_some_iff.1 h
    exact exists_tail_of_second? hsecond hfraction hzone
  · obtain ⟨n, r, nanosecond, r', offset, ⟨⟩, ⟨⟩, hzone, rfl⟩ := clock?_eq_some_iff.1 h
    exact exists_tail_of_zone? hzone

end Formats

/-! ### Literals -/

/-- What is related place by place has a partner for each member. -/
theorem exists_of_forall₂ {α β : Type} {R : α → β → Prop} {as : List α} {bs : List β}
    (h : List.Forall₂ R as bs) {a : α} (ha : a ∈ as) : ∃ b ∈ bs, R a b := by
  induction h with
  | nil => cases ha
  | cons hab _ ih =>
    rcases List.mem_cons.1 ha with rfl | ha
    · exact ⟨_, List.mem_cons_self, hab⟩
    · obtain ⟨b, hb, hR⟩ := ih ha
      exact ⟨b, List.mem_cons_of_mem _ hb, hR⟩

/-- Readers read the same behind a front if their tails do. -/
theorem Reads.eq_some_iff {reader tail : List Char → Option Int} (h : Reads reader tail)
    {front : Front} {rest : List Char} {ms : Int} : reader (front.text rest) = some ms ↔
      ∃ start later, front.fields?.bind (Fields.instant? 0) = some start ∧
        tail rest = some later ∧ start + later = ms := by
  simp only [h front rest, Option.bind_eq_some_iff, Option.map_eq_some_iff, exists_and_left]

section Readers

variable {s : List Char} {ms : Int} (hs : looksLikeLiteral s = true)
include hs

/-- **No format reads a literal wrongly:** what one of them reads is what one pass reads. -/
theorem literal?_of_reader {reader : List Char → Option Int} (hreader : reader ∈ readers)
    (h : reader s = some ms) : literal? s = some ms := by
  obtain ⟨front, rest, rfl⟩ := Front.exists_front hs
  obtain ⟨tail, htail, hreads⟩ := exists_of_forall₂ reads_tails hreader
  obtain ⟨start, later, hstart, hlater, hms⟩ := hreads.eq_some_iff.1 h
  exact reads_literal?.eq_some_iff.2 ⟨start, later, hstart, seconds?_of_tail htail hlater, hms⟩

/-- **No literal is left unread:** what one pass reads is read by some format. -/
theorem exists_reader (h : literal? s = some ms) : ∃ reader ∈ readers, reader s = some ms := by
  obtain ⟨front, rest, rfl⟩ := Front.exists_front hs
  obtain ⟨start, later, hstart, hlater, hms⟩ := reads_literal?.eq_some_iff.1 h
  obtain ⟨tail, htail, hlater⟩ := exists_tail hlater
  obtain ⟨reader, hreader, hreads⟩ := exists_of_forall₂ reads_tails.flip htail
  exact ⟨reader, hreader, Reads.eq_some_iff hreads |>.2 ⟨start, later, hstart, hlater, hms⟩⟩

/-- **Trying the formats one after another** reads what one pass reads. -/
theorem parse?_eq_literal? : parse? s = literal? s := by
  cases hparse : parse? s with
  | some ms =>
    obtain ⟨reader, hreader, h⟩ := List.exists_of_findSome?_eq_some hparse
    exact (literal?_of_reader hs hreader h).symm
  | none =>
    have hnone := List.findSome?_eq_none_iff.1 hparse
    cases hliteral : literal? s with
    | none => rfl
    | some ms =>
      obtain ⟨reader, hreader, h⟩ := exists_reader hs hliteral
      rw [hnone reader hreader] at h
      cases h

/-- **Any format that reads a literal** could have been tried first. -/
theorem parse?_of_reader {reader : List Char → Option Int} (hreader : reader ∈ readers)
    (h : reader s = some ms) : parse? s = some ms :=
  (parse?_eq_literal? hs).trans (literal?_of_reader hs hreader h)

end Readers

end TrafficBoard.Calendar
