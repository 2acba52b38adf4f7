import Mathlib
import TrafficBoard.Proofs.Range.Restart

namespace TrafficBoard.Controller

/-!
# Generations — how a controller counts the changes of its range

* `Counted` says what the answer to a request, the range and the generation have to do with each
  other, after a request that succeeded and before the first one that does;
* `Counting` relates the generation of a run to its log, and every event keeps to it;
* `Run.generation_counts_changes` says that the generation is the number of changes that were
  answered, and that the next request is counted too.

A controller is on the last 24 hours before any request has succeeded, without having resolved them.
The first range that it resolves is a change even if it is that same day, so until then an equal
range does not count as unchanged.
-/

/-! ### Counting one request -/

/-- What a request does to the range is what it answers, and what the generation counts. Where
`resolved` does not hold there was no range yet, and any range is a change. -/
def Counted (resolved : Prop) (c : Controller) (result : Answer × Controller) : Prop :=
  match result.1 with
  | .error _ => result.2.range = c.range ∧ result.2.generation = c.generation
  | .ok update =>
    (result.2.range = c.range ∧ resolved →
      update = .unchanged ∧ result.2.generation = c.generation) ∧
    (¬ (result.2.range = c.range ∧ resolved) →
      update = .changed result.2.range (c.generation + 1) ∧
        result.2.generation = c.generation + 1)

/-- A request to a controller is counted, with a range resolved before once there is a
generation. -/
theorem counted_apply (now : Int) (op : Operation) (c : Controller) :
    Counted (0 < c.generation) c (c.apply now op) := by
  unfold Counted
  rcases c.apply_cases now op with ⟨e, -, hdone⟩ | ⟨target, -, hdone⟩
  · rw [hdone.answer]
    exact ⟨hdone.range, hdone.generation⟩
  · rw [hdone.answer, hdone.range, hdone.generation]
    constructor
    · intro hsame
      rw [if_pos hsame]
      exact ⟨rfl, if_pos hsame⟩
    · intro hmoved
      rw [if_neg hmoved]
      exact ⟨rfl, if_neg hmoved⟩

/-! ### Counting a run -/

/-- Whether a request answered that the range had changed. -/
def Entry.isChange (e : Entry) : Bool :=
  match e.answer with
  | .ok (.changed _ _) => true
  | .ok .unchanged => false
  | .error _ => false

/-- The generation is the number of changes in the log, and there is one as soon as a request has
succeeded. -/
structure Counting (r : Run) : Prop where
  generation : r.controller.generation = r.log.countP Entry.isChange
  resolved : 0 < r.controller.generation ↔ (lastSuccess r.log).isSome

/-- Before any request there is nothing to count. -/
theorem counting_blank (built : Int) (kept : Selection) :
    Counting { now := built, controller := blank built kept, log := [] } where
  generation := rfl
  resolved := by simp [blank, lastSuccess]

/-- **One request.** An error adds to neither side, a change adds one to both, and an unchanged
range leaves a generation that was there before. -/
theorem Counting.request {r : Run} (h : Counting r) (op : Operation) : Counting (r.request op) := by
  have hlog : (r.request op).log = ⟨r.now, op, (r.controller.apply r.now op).1⟩ :: r.log := rfl
  have hcontroller : (r.request op).controller = (r.controller.apply r.now op).2 := rfl
  rcases r.controller.apply_cases r.now op with ⟨e, -, hdone⟩ | ⟨target, -, hdone⟩
  · constructor
    · rw [hlog, hcontroller, hdone.answer, hdone.generation, h.generation]
      exact (List.countP_cons_of_neg (by simp [Entry.isChange])).symm
    · rw [hlog, hcontroller, hdone.answer, hdone.generation, h.resolved]
      rfl
  · -- The request succeeded, so what is left of the second part is that there is a generation now.
    have hsuccess : (lastSuccess (r.request op).log).isSome := by
      rw [hlog, hdone.answer]
      rfl
    by_cases hsame : target = r.controller.range ∧ 0 < r.controller.generation
    · have hanswer := hdone.answer
      have hgeneration := hdone.generation
      rw [if_pos hsame] at hanswer hgeneration
      constructor
      · rw [hlog, hcontroller, hanswer, hgeneration, h.generation]
        exact (List.countP_cons_of_neg (by simp [Entry.isChange])).symm
      · rw [hcontroller, hgeneration]
        exact iff_of_true hsame.2 hsuccess
    · have hanswer := hdone.answer
      have hgeneration := hdone.generation
      rw [if_neg hsame] at hanswer hgeneration
      constructor
      · rw [hlog, hcontroller, hanswer, hgeneration, h.generation]
        exact (List.countP_cons_of_pos rfl).symm
      · rw [hcontroller, hgeneration]
        exact iff_of_true (Nat.succ_pos _) hsuccess

/-- One event: a clock that moves is no request. -/
theorem Counting.step {r : Run} (h : Counting r) (event : Event) : Counting (r.step event) := by
  cases event with
  | clock now => exact ⟨h.generation, h.resolved⟩
  | request op => exact h.request op

/-- A whole run. -/
theorem Counting.after {r : Run} (h : Counting r) (events : List Event) :
    Counting (r.after events) := by
  induction events generalizing r with
  | nil => exact h
  | cons event events ih => exact ih (h.step event)

namespace Run

/-- **The generation counts the changes of the range.** Take the controller made from any kept
selection, resolvable or not, any moves of its clock and any requests. Its generation is the number
of requests so far, the one that repeats the selection included, which were answered with a change.
A further request that fails leaves range and generation alone. One that succeeds is answered with
no change just when the range stays the same and some request has succeeded before, and then the
generation stays; otherwise it is answered with a change to the range that is there afterwards, and
the generation goes up by one. -/
theorem generation_counts_changes (built : Int) (kept : Selection) (events : List Event)
    (op : Operation) :
    let r := (ofSelection built kept).after events
    let c := r.controller
    c.generation = r.log.countP Entry.isChange ∧
      Counted ((lastSuccess r.log).isSome = true) c (c.apply r.now op) := by
  intro r c
  have hfirst : Counting (ofSelection built kept) := by
    rw [ofSelection_eq_request]
    exact (counting_blank built kept).request (replay kept)
  obtain ⟨hgeneration, hresolved⟩ := hfirst.after events
  refine ⟨hgeneration, ?_⟩
  have hcounted := c.counted_apply r.now op
  rw [propext hresolved] at hcounted
  exact hcounted

/-- A kept selection that does not resolve leaves the controller on the last 24 hours. Bounds of
that very day are then answered with a change, although the range stays the same. -/
theorem changed_to_the_same_range :
    let kept : Selection := { Selection.standard with mode := .expr, fromExpr := "garbage" }
    let r := ofSelection 86400000 kept
    let c := r.controller
    let result := c.apply r.now (.absolute 0 86400000)
    result.1 = .ok (.changed c.range 1) ∧ result.2.range = c.range ∧
      result.2.generation = c.generation + 1 ∧ ¬ Counted True c result := by
  intro kept r c result
  have hgarbage : resolveStored 86400000 kept kept.mode =
      .error (.expression "garbage" .notNow) := by decide
  have hc : c = { blank 86400000 kept with error := some (.expression "garbage" .notNow) } :=
    ofSelection_of_error (by decide) hgarbage
  have hday : TimeRange.ofBounds 0 86400000 = .ok c.range := by
    rw [hc]
    rfl
  have houtcome := c.outcome_apply r.now (.absolute 0 86400000)
  rw [show Operation.resolve r.now c.selection (.absolute 0 86400000) = .ok c.range from hday]
    at houtcome
  -- The day is the range already, but there is no generation yet.
  have hnone : c.generation = 0 := by
    rw [hc]
    rfl
  have hfirst : ¬ (c.range = c.range ∧ 0 < c.generation) := by simp [hnone]
  have hanswer : result.1 = .ok (.changed c.range 1) := by
    rw [houtcome.answer, if_neg hfirst, hnone]
  have hsame : result.2.range = c.range := houtcome.range
  refine ⟨hanswer, hsame, houtcome.generation.trans (if_neg hfirst), ?_⟩
  intro hcounted
  unfold Counted at hcounted
  rw [hanswer] at hcounted
  obtain ⟨hunchanged, -⟩ := hcounted.1 ⟨hsame, trivial⟩
  exact Update.noConfusion hunchanged

end Run

end TrafficBoard.Controller
