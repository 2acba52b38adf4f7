import Mathlib
import TrafficBoard.Proofs.Dashboard.Fetches
import TrafficBoard.Proofs.Series.Exact

namespace TrafficBoard

/-!
# Invalidation — what several requests at once leave of the tables

* `Controller.answersOf` are the answers to requests made one after the other, up to the first that
  fails; `Controller.generation_applyAll` says that the generation counts the changes among them,
  and `Controller.fst_applyAll` that the last of them is the answer to all;
* `Session.Bare` says that a session has no table and no error of a fetch;
* `Session.Invalidates` says that requests which move the range leave a bare session behind, and
  `Session.invalidates_iff` when they do;
* `Session.tables_of_earlier_range` are requests that do not.

A session looks at the answer to the last request only. The range may have moved before that one,
and then what was fetched for the earlier range stays, since tables are looked up by their kind
alone.
-/

/-! ### Several requests to a controller -/

namespace Controller

/-- Whether an answer is that the range has changed. -/
def isChange : Answer → Bool
  | .ok (.changed _ _) => true
  | .ok .unchanged => false
  | .error _ => false

/-- The answers to requests, each made at its own instant, up to the first that fails. -/
def answersOf : List (Int × Operation) → Controller → List Answer
  | [], _ => []
  | (now, op) :: requests, c =>
    match c.apply now op with
    | (.error e, _) => [.error e]
    | (.ok update, later) => .ok update :: answersOf requests later

section Several

variable {now : Int} {op : Operation} {requests : List (Int × Operation)} {c later : Controller}

/-- A request that fails is the last one. -/
theorem answersOf_cons_error {e : RangeError} (h : c.apply now op = (.error e, later)) :
    answersOf ((now, op) :: requests) c = [.error e] ∧
      applyAll ((now, op) :: requests) c = (.error e, later) := by
  refine ⟨by simp only [answersOf, h], ?_⟩
  cases requests with
  | nil => exact h
  | cons next requests => simp only [applyAll, h]

/-- After a request that succeeds the others are made of the controller that it leaves behind; the
answer is its own if there are none. -/
theorem answersOf_cons_ok {update : Update} (h : c.apply now op = (.ok update, later)) :
    answersOf ((now, op) :: requests) c = .ok update :: answersOf requests later ∧
      (applyAll ((now, op) :: requests) c).1 =
        (if requests = [] then .ok update else (applyAll requests later).1) ∧
      (applyAll ((now, op) :: requests) c).2 = (applyAll requests later).2 := by
  refine ⟨by simp only [answersOf, h], ?_⟩
  cases requests with
  | nil => exact ⟨by simp [applyAll, h], by simp only [applyAll, h]⟩
  | cons next requests =>
    rw [if_neg (List.cons_ne_nil next requests)]
    simp only [applyAll, h]
    exact ⟨trivial, trivial⟩

/-- There is an answer as soon as there is a request. -/
theorem answersOf_eq_nil_iff : answersOf requests c = [] ↔ requests = [] := by
  cases requests with
  | nil => exact iff_of_true rfl rfl
  | cons request requests =>
    obtain ⟨now, op⟩ := request
    refine iff_of_false ?_ (List.cons_ne_nil _ _)
    rcases happly : c.apply now op with ⟨e | update, later⟩
    · rw [(answersOf_cons_error happly).1]
      exact List.cons_ne_nil _ _
    · rw [(answersOf_cons_ok happly).1]
      exact List.cons_ne_nil _ _

/-- **The answer to several requests is the last one given.** -/
theorem fst_applyAll (requests : List (Int × Operation)) (c : Controller) :
    (applyAll requests c).1 = (answersOf requests c).getLast?.getD (.ok .unchanged) := by
  induction requests generalizing c with
  | nil => rfl
  | cons request requests ih =>
    obtain ⟨now, op⟩ := request
    rcases happly : c.apply now op with ⟨e | update, later⟩
    · obtain ⟨hanswers, hall⟩ := @answersOf_cons_error now op requests c later e happly
      rw [hanswers, hall]
      rfl
    · obtain ⟨hanswers, hall, -⟩ := @answersOf_cons_ok now op requests c later update happly
      rw [hanswers, hall, List.getLast?_cons, Option.getD_some]
      by_cases hnone : requests = []
      · rw [if_pos hnone, answersOf_eq_nil_iff.2 hnone]
        rfl
      · -- There are further answers, so the default does not matter.
        rw [if_neg hnone, ih later]
        rw [← @answersOf_eq_nil_iff requests later] at hnone
        rw [List.getLast?_eq_some_getLast hnone, Option.getD_some, Option.getD_some]

/-- One request counts up just when it is answered with a change. -/
theorem generation_apply (now : Int) (op : Operation) (c : Controller) :
    (c.apply now op).2.generation =
      c.generation + if isChange (c.apply now op).1 then 1 else 0 := by
  rcases c.apply_cases now op with ⟨e, -, hdone⟩ | ⟨target, -, hdone⟩
  · rw [hdone.answer, hdone.generation]
    rfl
  · rw [hdone.answer, hdone.generation]
    split
    all_goals rfl

/-- **The generation counts the changes among the answers.** -/
theorem generation_applyAll (requests : List (Int × Operation)) (c : Controller) :
    (applyAll requests c).2.generation = c.generation + (answersOf requests c).countP isChange := by
  induction requests generalizing c with
  | nil => rfl
  | cons request requests ih =>
    obtain ⟨now, op⟩ := request
    have hone := generation_apply now op c
    rcases happly : c.apply now op with ⟨e | update, later⟩
    · obtain ⟨hanswers, hall⟩ := @answersOf_cons_error now op requests c later e happly
      rw [happly] at hone
      rw [hanswers, hall]
      exact hone
    · obtain ⟨hanswers, -, hall⟩ := @answersOf_cons_ok now op requests c later update happly
      rw [happly] at hone
      rw [hanswers, hall, ih later, hone, List.countP_cons]
      dsimp only
      omega

end Several

end Controller

namespace Session

open Controller (isChange answersOf)

variable {α : Type}

/-! ### Several requests to a session -/

/-- A session with no table, and no error of a fetch. -/
structure Bare (s : Session α) : Prop where
  tables : ∀ kind, s.tables kind = none
  tableErrors : ∀ kind, s.tableErrors kind = none
  chartError : s.chartError = none

/-- A session that has dropped everything is bare. -/
theorem bare_invalidate (s : Session α) : s.invalidate.Bare :=
  ⟨fun _ => rfl, fun _ => rfl, rfl⟩

section Requests

variable (requests : List (Int × Controller.Operation)) (s : Session α)

/-- **Several requests.** The answer and the controller are those of the requests. What was fetched
is dropped if that answer is a change, and all of it is kept otherwise. -/
theorem updateRangeAt_eq :
    s.updateRangeAt requests =
      let result := s.controller.applyAll requests
      (result.1,
        if isChange result.1 then { s with controller := result.2 }.invalidate
        else { s with controller := result.2 }) := by
  unfold updateRangeAt
  rcases s.controller.applyAll requests with ⟨e | update, controller⟩
  · rfl
  · cases update
    all_goals rfl

/-- The session is bare just when the answer is a change, or when it was bare before. -/
theorem bare_updateRangeAt_iff :
    (s.updateRangeAt requests).2.Bare ↔ isChange (s.updateRangeAt requests).1 ∨ s.Bare := by
  rw [updateRangeAt_eq]
  by_cases hchange : isChange (s.controller.applyAll requests).1 = true
  · simp only [hchange, if_true]
    exact iff_of_true (bare_invalidate _) (Or.inl trivial)
  · simp only [hchange, Bool.false_eq_true, if_false, false_or]
    -- The tables and the errors are those of before.
    exact ⟨fun h => ⟨h.tables, h.tableErrors, h.chartError⟩,
      fun h => ⟨h.tables, h.tableErrors, h.chartError⟩⟩

/-- Requests that move the range leave nothing behind that was fetched for an earlier one. -/
def Invalidates : Prop :=
  (s.updateRangeAt requests).2.controller.generation ≠ s.controller.generation →
    (s.updateRangeAt requests).2.Bare

/-- The range moves just when one of the answers is a change. -/
theorem generation_updateRangeAt_ne_iff :
    (s.updateRangeAt requests).2.controller.generation ≠ s.controller.generation ↔
      ∃ answer ∈ answersOf requests s.controller, isChange answer := by
  have hcontroller :
      (s.updateRangeAt requests).2.controller = (s.controller.applyAll requests).2 := by
    rw [updateRangeAt_eq]
    dsimp only
    split
    all_goals rfl
  rw [hcontroller, Controller.generation_applyAll, ← List.countP_pos_iff]
  omega

end Requests

/-- **When several requests invalidate.** Requests leave no table and no error of an earlier range
behind just when none of them moves the range, or the last one does, or there was nothing to leave
behind. The last one is the one that fails if one does. In any other case the generation has counted
up while all tables and errors of fetches are still those of before, and views show those tables. -/
theorem invalidates_iff (requests : List (Int × Controller.Operation)) (s : Session α) :
    (s.Invalidates requests ↔
      (∀ answer ∈ answersOf requests s.controller, ¬ isChange answer) ∨
      (∃ answer, (answersOf requests s.controller).getLast? = some answer ∧ isChange answer) ∨
      s.Bare) ∧
    (¬ s.Invalidates requests →
      let later := (s.updateRangeAt requests).2
      s.controller.generation < later.controller.generation ∧ later.tables = s.tables ∧
        later.tableErrors = s.tableErrors ∧ later.chartError = s.chartError ∧
        later.tableSet = s.tableSet) := by
  have hlast : isChange (s.updateRangeAt requests).1 = true ↔
      ∃ answer, (answersOf requests s.controller).getLast? = some answer ∧ isChange answer := by
    rw [updateRangeAt_eq, Controller.fst_applyAll]
    cases hanswers : (answersOf requests s.controller).getLast? with
    | none => simp [isChange]
    | some answer => simp
  constructor
  · unfold Invalidates
    rw [generation_updateRangeAt_ne_iff, bare_updateRangeAt_iff, hlast]
    constructor
    · intro h
      by_cases hmoved : ∃ answer ∈ answersOf requests s.controller, isChange answer
      · exact Or.inr (h hmoved)
      · exact Or.inl fun answer hmem hchange => hmoved ⟨answer, hmem, hchange⟩
    · rintro (hnone | hdropped) ⟨answer, hmem, hchange⟩
      · exact absurd hchange (hnone answer hmem)
      · exact hdropped
  · intro hnot later
    unfold Invalidates at hnot
    rw [Classical.not_imp] at hnot
    obtain ⟨hmoved, hkept⟩ := hnot
    rw [bare_updateRangeAt_iff, not_or] at hkept
    have hlater : later = { s with controller := (s.controller.applyAll requests).2 } := by
      show (s.updateRangeAt requests).2 = _
      have hanswer := hkept.1
      rw [updateRangeAt_eq] at hanswer ⊢
      exact if_neg hanswer
    have hcount := s.controller.generation_applyAll requests
    have hgeneration :
        later.controller.generation = (s.controller.applyAll requests).2.generation := by
      rw [hlater]
    refine ⟨?_, by rw [hlater], by rw [hlater], by rw [hlater], by rw [hlater]; rfl⟩
    have hne : later.controller.generation ≠ s.controller.generation := hmoved
    omega

/-- A table is fetched for the bounds 1000 and 2000, and they are left for others. When the mode of
bounds is gone back to in the same breath, the answer is that nothing has changed; when bounds that
are out of order are asked for, it is an error. Either way the table of the earlier range stays and
is shown for the new one, although the session would ask for it again. -/
theorem tables_of_earlier_range :
    let totals : TrafficTable Int := [⟨.ofMac "aa", ⟨7, 5⟩⟩]
    let source : Source Int := ⟨fun _ _ => .ok .empty, fun _ _ _ => .ok (.traffic totals)⟩
    let s : Session Int := (((start (.blank 0 .standard) {} none).updateRange 0
      [.absolute 1000 2000]).2.ensureTable .traffic source).2
    let unchanged := s.updateRangeAt [(0, .absolute 3000 4000), (1, .activate .absolute)]
    let refused := s.updateRangeAt [(0, .absolute 3000 4000), (1, .absolute 5 4)]
    s.controller.generation = 1 ∧ (s.tables .traffic).map CachedTable.generation = some 1 ∧
    (unchanged.1 = .ok .unchanged ∧ unchanged.2.controller.range = ⟨3000, 4000, by decide⟩ ∧
      unchanged.2.controller.generation = 2 ∧ unchanged.2.isCached .traffic = false ∧
      (unchanged.2.view "aa").tables.traffic = some ⟨7, 5⟩ ∧
      ¬ s.Invalidates [(0, .absolute 3000 4000), (1, .activate .absolute)]) ∧
    (refused.1 = .error (.bounds (some 5) (some 4) .order) ∧
      refused.2.controller.generation = 2 ∧ refused.2.isCached .traffic = false ∧
      (refused.2.view "aa").tables.traffic = some ⟨7, 5⟩ ∧
      ¬ s.Invalidates [(0, .absolute 3000 4000), (1, .absolute 5 4)]) := by
  intro totals source s unchanged refused
  refine ⟨rfl, rfl, ⟨rfl, rfl, rfl, rfl, rfl, fun h => ?_⟩, ⟨rfl, rfl, rfl, rfl, fun h => ?_⟩⟩
  · have hgone : unchanged.2.tables .traffic = none := (h (by decide)).tables .traffic
    have hthere : unchanged.2.tables .traffic = some ⟨1, .traffic totals⟩ := rfl
    rw [hthere] at hgone
    simp at hgone
  · have hgone : refused.2.tables .traffic = none := (h (by decide)).tables .traffic
    have hthere : refused.2.tables .traffic = some ⟨1, .traffic totals⟩ := rfl
    rw [hthere] at hgone
    simp at hgone

/-- One request alone always invalidates. -/
theorem invalidates_single (now : Int) (op : Controller.Operation) (s : Session α) :
    s.Invalidates [(now, op)] := by
  intro hmoved
  rcases s.updateRange_cases now op with
    ⟨range, generation, hanswer, -⟩ | ⟨-, -, hsame, -⟩
  · rw [bare_updateRangeAt_iff, ← updateRange_one, hanswer]
    exact Or.inl rfl
  · exact absurd hsame hmoved

end Session

end TrafficBoard
