import Mathlib
import TrafficBoard.Range.Controller

namespace TrafficBoard.Controller

/-!
# Requests — what one request does to a controller

* `Operation.resolve` is the range that a request asks for, given what is stored for each mode;
* `Refused` and `Granted` say all that a request does to a controller, when that range is an error
  and when there is one;
* `outcome_apply` says that a request does one or the other, whichever way it is carried out, and
  `apply_cases` puts it as two cases.

Requests that go back to a mode are carried out as requests for what is stored for it, so the
selection that they store is the one there was, in that mode.
-/

/-! ### What a request asks for -/

/-- The range of a mode with what is stored for it. -/
def resolveStored (now : Int) (kept : Selection) : RangeMode → Except RangeError TimeRange
  | .preset => TimeRange.resolve kept.preset.fromExpr "now" now
  | .expr => TimeRange.resolve kept.fromExpr kept.toExpr now
  | .absolute =>
    match kept.absoluteFrom, kept.absoluteTo with
    | some fromMs, some toMs => TimeRange.ofBounds fromMs toMs
    | fromMs, toMs => .error (.bounds fromMs toMs .noneSelected)

namespace Operation

/-- The range that a request asks for at an instant. -/
def resolve (now : Int) (kept : Selection) : Operation → Except RangeError TimeRange
  | .preset p => TimeRange.resolve p.fromExpr "now" now
  | .expressions fromExpr toExpr => TimeRange.resolve fromExpr toExpr now
  | .absolute fromMs toMs => TimeRange.ofBounds fromMs toMs
  | .activate mode => resolveStored now kept mode
  | .refresh => resolveStored now kept kept.mode

/-- What a request stores in any case: the texts of two expressions. -/
def note (kept : Selection) : Operation → Selection
  | .expressions fromExpr toExpr => { kept with fromExpr, toExpr }
  | _ => kept

/-- What a request stores when there is a range. -/
def store (kept : Selection) : Operation → Selection
  | .preset p => { kept with preset := p, mode := .preset }
  | .expressions fromExpr toExpr => { kept with fromExpr, toExpr, mode := .expr }
  | .absolute fromMs toMs =>
    { kept with absoluteFrom := some fromMs, absoluteTo := some toMs, mode := .absolute }
  | .activate mode => { kept with mode }
  | .refresh => kept

end Operation

/-! ### What a request does -/

/-- A request without a range changes nothing but the error and what it notes. -/
structure Refused (noted : Selection) (c : Controller) (e : RangeError)
    (result : Answer × Controller) : Prop where
  answer : result.1 = .error e
  selection : result.2.selection = noted
  range : result.2.range = c.range
  generation : result.2.generation = c.generation
  error : result.2.error = some e

/-- A request with a range takes it over, stores the selection and clears the error. It counts as a
change unless the range is the one there was, and there was one. -/
structure Granted (stored : Selection) (c : Controller) (target : TimeRange)
    (result : Answer × Controller) : Prop where
  answer : result.1 = .ok (if target = c.range ∧ 0 < c.generation then .unchanged
    else .changed target (c.generation + 1))
  selection : result.2.selection = stored
  range : result.2.range = target
  generation : result.2.generation =
    if target = c.range ∧ 0 < c.generation then c.generation else c.generation + 1
  error : result.2.error = none

/-- What becomes of a request by what it resolves to. -/
def Outcome (noted stored : Selection) (c : Controller) (result : Answer × Controller) :
    Except RangeError TimeRange → Prop
  | .error e => Refused noted c e result
  | .ok target => Granted stored c target result

/-- A request is carried out by resolving it and storing the selection, once something has been
noted. Neither noting nor storing touches range, generation or error. -/
theorem outcome_commit {c noted : Controller} {store : Controller → Controller}
    (resolved : Except RangeError TimeRange)
    (hnoted : noted.range = c.range ∧ noted.generation = c.generation)
    (hstore : ∀ d, (store d).range = d.range ∧ (store d).generation = d.generation ∧
      (store d).error = d.error) :
    Outcome noted.selection (store { noted with error := none }).selection c
      (noted.commit resolved store) resolved := by
  obtain ⟨hnr, hng⟩ := hnoted
  cases resolved with
  | error e => exact ⟨rfl, rfl, hnr, hng, rfl⟩
  | ok target =>
    obtain ⟨hr, hg, he⟩ := hstore { noted with error := none }
    by_cases h : target = c.range ∧ 0 < c.generation
    · have hcommit : noted.commit (.ok target) store =
          (.ok .unchanged, store { noted with error := none }) :=
        if_pos (by rw [hnr, hng]; exact h)
      rw [hcommit]
      exact ⟨by rw [if_pos h], rfl, by rw [hr, h.1, ← hnr], by rw [if_pos h, hg, ← hng], he⟩
    · -- The stored controller is the same but for the range and the generation.
      have hcommit : noted.commit (.ok target) store =
          (.ok (.changed target (noted.generation + 1)),
            { store { noted with error := none } with
              range := target, generation := noted.generation + 1 }) :=
        if_neg (by rw [hnr, hng]; exact h)
      rw [hcommit]
      exact ⟨by rw [if_neg h, hng], rfl, rfl, by rw [if_neg h, ← hng], he⟩

section Requests

variable (now : Int) (c : Controller)

/-- What becomes of a preset. -/
theorem outcome_selectPreset (p : Preset) :
    Outcome c.selection { c.selection with preset := p, mode := .preset } c
      (c.selectPreset now p) (TimeRange.resolve p.fromExpr "now" now) :=
  outcome_commit _ ⟨rfl, rfl⟩ fun _ => ⟨rfl, rfl, rfl⟩

/-- What becomes of two expressions, which are noted first. -/
theorem outcome_applyExpressions (fromExpr toExpr : String) :
    Outcome { c.selection with fromExpr, toExpr }
      { c.selection with fromExpr, toExpr, mode := .expr } c
      (c.applyExpressions now fromExpr toExpr) (TimeRange.resolve fromExpr toExpr now) :=
  @outcome_commit c { c with fromExpr, toExpr } (fun d => { d with mode := .expr }) _
    ⟨rfl, rfl⟩ fun _ => ⟨rfl, rfl, rfl⟩

/-- What becomes of two bounds. -/
theorem outcome_applyAbsolute (fromMs toMs : Int) :
    Outcome c.selection
      { c.selection with
        absoluteFrom := some fromMs, absoluteTo := some toMs, mode := .absolute } c
      (c.applyAbsolute fromMs toMs) (TimeRange.ofBounds fromMs toMs) :=
  outcome_commit _ ⟨rfl, rfl⟩ fun _ => ⟨rfl, rfl, rfl⟩

/-- What becomes of going back to a mode. What is stored for it is stored once more. -/
theorem outcome_activate (mode : RangeMode) :
    Outcome c.selection { c.selection with mode } c (c.activate now mode)
      (resolveStored now c.selection mode) := by
  cases mode with
  | preset => exact c.outcome_selectPreset now c.preset
  | expr => exact c.outcome_applyExpressions now c.fromExpr c.toExpr
  | absolute =>
    unfold activate resolveStored
    show Outcome _ _ c _ (match c.absoluteFrom, c.absoluteTo with
      | some fromMs, some toMs => TimeRange.ofBounds fromMs toMs
      | fromMs, toMs => .error (.bounds fromMs toMs .noneSelected))
    cases hfrom : c.absoluteFrom with
    | none =>
      -- Nothing is selected, so the request fails before anything is resolved.
      exact ⟨rfl, rfl, rfl, rfl, rfl⟩
    | some fromMs =>
      cases hto : c.absoluteTo with
      | none => exact ⟨rfl, rfl, rfl, rfl, rfl⟩
      | some toMs =>
        have hstored : { c.selection with
            absoluteFrom := some fromMs, absoluteTo := some toMs, mode := .absolute } =
            { c.selection with mode := .absolute } := by
          rw [← hfrom, ← hto]
          rfl
        rw [← hstored]
        exact c.outcome_applyAbsolute fromMs toMs

/-- **A request is refused or granted by what it asks for.** -/
theorem outcome_apply (op : Operation) :
    Outcome (op.note c.selection) (op.store c.selection) c (c.apply now op)
      (op.resolve now c.selection) := by
  cases op with
  | preset p => exact c.outcome_selectPreset now p
  | expressions fromExpr toExpr => exact c.outcome_applyExpressions now fromExpr toExpr
  | absolute fromMs toMs => exact c.outcome_applyAbsolute fromMs toMs
  | activate mode => exact c.outcome_activate now mode
  | refresh => exact c.outcome_activate now c.mode

/-- **A request is refused with the error of the range that it asks for, or granted with that
range.** -/
theorem apply_cases (op : Operation) :
    (∃ e, op.resolve now c.selection = .error e ∧
      Refused (op.note c.selection) c e (c.apply now op)) ∨
    (∃ range, op.resolve now c.selection = .ok range ∧
      Granted (op.store c.selection) c range (c.apply now op)) := by
  have houtcome := c.outcome_apply now op
  cases hop : op.resolve now c.selection with
  | error e =>
    rw [hop] at houtcome
    exact Or.inl ⟨e, rfl, houtcome⟩
  | ok range =>
    rw [hop] at houtcome
    exact Or.inr ⟨range, rfl, houtcome⟩

end Requests

end TrafficBoard.Controller
