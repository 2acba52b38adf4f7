import Mathlib
import TrafficBoard.Proofs.Range.CalendarTerms

namespace TrafficBoard

/-!
# Directions — offsets of one sign go that way

* `Term.sign_of_apply` says that a term moves an instant in the direction of its sign, whatever its
  unit, and `Term.sign_of_applyAll` that terms of one sign do so together;
* `TimeExpr.resolve_one_sign` says that an expression with such terms resolves before or after the
  present instant, so that there is a range between the two.

A day past the end of a month runs on into the next, so a later instant need not stay later when
both are moved. But an instant itself always moves to the same day of another month, and the first
days of the months are in order.
-/

namespace Term

section Sign

variable {t : Term} {terms : List Term} {base ms later : Int}

/-- The sign of a term is that of its amount. -/
theorem sign_signed (h : 1 ≤ t.amount) : t.signed.sign = if t.negative then -1 else 1 := by
  have hpos : 0 < (t.amount : Int) := Int.natCast_pos.2 h
  unfold signed
  split
  · rw [Int.sign_neg, Int.sign_eq_one_of_pos hpos]
  · rw [Int.sign_eq_one_of_pos hpos]

/-- Two steps in one direction lead in that direction. -/
theorem sign_add {a b direction : Int} (ha : a.sign = direction) (hb : b.sign = direction) :
    (a + b).sign = direction := by
  rcases lt_trichotomy a 0 with hneg | rfl | hpos
  · rw [Int.sign_eq_neg_one_of_neg hneg] at ha
    subst ha
    exact Int.sign_eq_neg_one_of_neg (add_neg hneg (Int.sign_eq_neg_one_iff_neg.1 hb))
  · rwa [zero_add]
  · rw [Int.sign_eq_one_of_pos hpos] at ha
    subst ha
    exact Int.sign_eq_one_of_pos (add_pos hpos (Int.sign_eq_one_iff_pos.1 hb))

/-- **A term moves an instant in the direction of its sign.** -/
theorem sign_of_apply (h : t.apply ms = .ok later) : (later - ms).sign = t.signed.sign := by
  by_cases hunit : t.unit.IsFixed
  · rw [apply_of_isFixed hunit] at h
    split at h
    · obtain rfl := Except.ok.inj h
      rw [add_sub_cancel_left, shiftMs, Int.sign_mul,
        Int.sign_eq_one_of_pos hunit.lengthMs_pos, mul_one]
    · cases h
  · rw [apply_of_not_isFixed hunit] at h
    split at h
    · rename_i hlater
      obtain rfl := Except.ok.inj h
      rw [Calendar.sign_of_monthsLater hlater, shiftMonths, Int.sign_mul,
        Int.sign_eq_one_of_pos t.unit.months_pos, mul_one]
    · cases h

/-- **Terms of one sign** move an instant in its direction. -/
theorem sign_of_applyAll {direction : Int} (hne : terms ≠ [])
    (hsign : ∀ t ∈ terms, t.signed.sign = direction) (h : applyAll terms base = .ok ms) :
    (ms - base).sign = direction := by
  induction terms generalizing base with
  | nil => exact absurd rfl hne
  | cons t terms ih =>
    obtain ⟨hfirst, hsign⟩ := List.forall_mem_cons.1 hsign
    rw [applyAll, List.foldlM_cons] at h
    cases hstep : t.apply base with
    | error fault =>
      rw [hstep] at h
      cases h
    | ok middle =>
      rw [hstep] at h
      have hmiddle : (middle - base).sign = direction := (sign_of_apply hstep).trans hfirst
      have hrest : applyAll terms middle = .ok ms := h
      -- No terms at all lead nowhere, so the last one gives the sign by itself.
      by_cases hlast : terms = []
      · subst hlast
        obtain rfl : middle = ms := Except.ok.inj hrest
        exact hmiddle
      · rw [← sub_add_sub_cancel ms middle base]
        exact sign_add (ih hlast hsign hrest) hmiddle

end Sign

end Term

namespace TimeExpr

/-- Where an expression with terms of one sign resolves, it is in the direction of the sign. -/
theorem sign_of_resolve {expr : String} {terms : List Term} {base ms : Int} (negative : Bool)
    (h : Offsets expr terms) (hne : terms ≠ []) (hamount : ∀ t ∈ terms, 1 ≤ t.amount)
    (hsign : ∀ t ∈ terms, t.negative = negative) (hok : resolve expr base = .ok ms) :
    (ms - base).sign = if negative then -1 else 1 := by
  refine Term.sign_of_applyAll hne (fun t ht => ?_) (applyAll_of_resolve h hok)
  rw [Term.sign_signed (hamount t ht), hsign t ht]

/-- **Offsets back go strictly back, and offsets on go strictly on.** Where an expression resolves
that puts terms of one sign after `now`, each with an amount of one or more and in any unit, it does
so before the present instant if the sign is negative and after it if it is positive; so there is a
range between the two. -/
theorem resolve_one_sign {expr : String} {terms : List Term} (h : Offsets expr terms)
    (hne : terms ≠ []) (hamount : ∀ t ∈ terms, 1 ≤ t.amount) (base : Int) :
    ((∀ t ∈ terms, t.negative = true) → ∀ ms, resolve expr base = .ok ms →
      ∃ hlt : ms < base, TimeRange.resolve expr "now" base = .ok ⟨ms, base, hlt⟩) ∧
    ((∀ t ∈ terms, t.negative = false) → ∀ ms, resolve expr base = .ok ms →
      ∃ hlt : base < ms, TimeRange.resolve "now" expr base = .ok ⟨base, ms, hlt⟩) := by
  refine ⟨fun hback ms hok => ?_, fun hon ms hok => ?_⟩
  · have hsign : (ms - base).sign = -1 := sign_of_resolve true h hne hamount hback hok
    have hlt : ms < base := sub_neg.1 (Int.sign_eq_neg_one_iff_neg.1 hsign)
    refine ⟨hlt, ?_⟩
    rw [TimeRange.resolve, hok, resolve_now]
    exact TimeRange.ofBounds_of_lt hlt
  · have hsign : (ms - base).sign = 1 := sign_of_resolve false h hne hamount hon hok
    have hlt : base < ms := sub_pos.1 (Int.sign_eq_one_iff_pos.1 hsign)
    refine ⟨hlt, ?_⟩
    rw [TimeRange.resolve, hok, resolve_now]
    exact TimeRange.ofBounds_of_lt hlt

/-- A month and a second before the end of March is the first of March, and a year after a leap day
is the first of March as well. -/
theorem resolve_one_sign_month_ends :
    Offsets "now-1m-1s" [⟨true, 1, .month⟩, ⟨true, 1, .second⟩] ∧
      resolve "now-1m-1s" 1711843200000 = .ok 1709337599000 ∧
      (∃ hlt, TimeRange.resolve "now-1m-1s" "now" 1711843200000 =
        .ok ⟨1709337599000, 1711843200000, hlt⟩) ∧
      Offsets "now+1y" [⟨false, 1, .year⟩] ∧
      resolve "now+1y" 1709164800000 = .ok 1740787200000 ∧
      ∃ hlt, TimeRange.resolve "now" "now+1y" 1709164800000 =
        .ok ⟨1709164800000, 1740787200000, hlt⟩ := by
  have hback : Offsets "now-1m-1s" [⟨true, 1, .month⟩, ⟨true, 1, .second⟩] := offsets_ofTerms _
  have hon : Offsets "now+1y" [⟨false, 1, .year⟩] := offsets_ofTerms _
  have hmarch : resolve "now-1m-1s" 1711843200000 = .ok 1709337599000 := by
    have hterms : Term.applyAll [⟨true, 1, .month⟩, ⟨true, 1, .second⟩] 1711843200000 =
        .ok 1709337599000 := by decide +kernel
    rw [resolve_offsets hback (by decide), hterms]
    rfl
  have hleap : resolve "now+1y" 1709164800000 = .ok 1740787200000 := by
    have hterms : Term.applyAll [⟨false, 1, .year⟩] 1709164800000 = .ok 1740787200000 := by
      decide +kernel
    rw [resolve_offsets hon (by decide), hterms]
    rfl
  exact ⟨hback, hmarch,
    (resolve_one_sign hback (by simp) (by decide) 1711843200000).1 (by decide) _ hmarch, hon, hleap,
    (resolve_one_sign hon (by simp) (by decide) 1709164800000).2 (by decide) _ hleap⟩

end TimeExpr

end TrafficBoard
