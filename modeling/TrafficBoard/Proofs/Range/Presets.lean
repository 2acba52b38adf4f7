import Mathlib
import TrafficBoard.Proofs.Range.Offsets
import TrafficBoard.Range.Preset

namespace TrafficBoard

/-!
# Lengths of presets — which stretch of time a quick range is

* `Preset.lengthMs` is the length of a quick range and `Preset.rangeAt` the range that ends at an
  instant;
* `Preset.resolve_fromExpr` says that the expressions of a quick range resolve to that range, or to
  an offset out of range where its start is no signed word.
-/

namespace Preset

/-- The one term of the expression of a quick range. -/
def term : Preset → Term
  | .lastHour => ⟨true, 1, .hour⟩
  | .last6Hours => ⟨true, 6, .hour⟩
  | .last24Hours => ⟨true, 24, .hour⟩
  | .last7Days => ⟨true, 7, .day⟩

/-- The expression of a quick range is its term after `now`. -/
theorem offsets_fromExpr (p : Preset) : TimeExpr.Offsets p.fromExpr [p.term] := by
  have hexpr : p.fromExpr = TimeExpr.ofTerms [p.term] := by
    cases p
    all_goals decide
  rw [hexpr]
  exact TimeExpr.offsets_ofTerms [p.term]

/-- The length of a quick range in milliseconds. -/
def lengthMs : Preset → Int
  | .lastHour => 3600000
  | .last6Hours => 21600000
  | .last24Hours => 86400000
  | .last7Days => 604800000

/-- A quick range is not empty. -/
theorem lengthMs_pos (p : Preset) : 0 < p.lengthMs := by
  cases p
  all_goals decide

/-- The quick range that ends at an instant. -/
def rangeAt (p : Preset) (now : Int) : TimeRange where
  fromMs := now - p.lengthMs
  toMs := now
  ordered := by
    have := p.lengthMs_pos
    omega

/-- The term of a quick range is as long as the range, and that is a signed word. -/
theorem term_mul_fixedMs (p : Preset) :
    ∃ unit, p.term.unit.fixedMs = some unit ∧ Number.InWord (p.term.amount * unit) ∧
      p.term.signed * unit = -p.lengthMs := by
  cases p with
  | last7Days => exact ⟨86400000, rfl, by decide, by decide⟩
  | _ => exact ⟨3600000, rfl, by decide, by decide⟩

/-- The term of a quick range moves an instant back by its length, if that leaves a signed word. -/
theorem apply_term (p : Preset) (base : Int) :
    p.term.apply base =
      if Number.InWord (base - p.lengthMs) then .ok (base - p.lengthMs)
      else .error .outOfRange := by
  obtain ⟨unit, hunit, hword, hlength⟩ := p.term_mul_fixedMs
  rw [Term.apply, hunit]
  simp only [hlength, hword, true_and, ← Int.sub_eq_add_neg]

/-- **The expressions of a quick range** resolve to the range of its length, or fail where the start
of that leaves the signed words. -/
theorem resolve_fromExpr (p : Preset) (now : Int) :
    TimeRange.resolve p.fromExpr "now" now =
      if Number.InWord (now - p.lengthMs) then .ok (p.rangeAt now)
      else .error (.expression p.fromExpr .outOfRange) := by
  have hsize : ∀ t ∈ [p.term], t.amount < Number.sizeLimit := by
    cases p
    all_goals decide
  have htrim : Text.trim p.fromExpr = p.fromExpr := by
    cases p
    all_goals decide
  have hfrom := TimeExpr.resolve_offsets p.offsets_fromExpr hsize now
  rw [Term.applyAll, List.foldlM_cons, p.apply_term, htrim] at hfrom
  rw [TimeRange.resolve, hfrom, TimeExpr.resolve_now]
  split
  · exact TimeRange.ofBounds_of_lt (p.rangeAt now).ordered
  · rfl

end Preset

end TrafficBoard
