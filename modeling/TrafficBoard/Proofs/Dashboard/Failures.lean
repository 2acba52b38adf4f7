import Mathlib
import TrafficBoard.Proofs.Dashboard.Fetches
import TrafficBoard.Proofs.Series.Exact

namespace TrafficBoard.Session

/-!
# Failures — steps after which a session shows what it showed before

* `Step` is a step that can fail, `Step.run` carries it out and `Step.Fails` says when it fails;
* `Intact` relates two sessions that hold the same data for the same range, and `view_of_intact`
  says that their views differ in the errors at most;
* `Intact.step` says that a step that fails leaves a session intact, `Intact.outage` that any number
  of them do;
* `failed_step_shows_the_same` is what a user sees of it.

A failure writes an error, and a refused request may note its expressions too. A view reads the
former for its list of errors only, and the latter not at all.
-/

variable {α : Type}

/-! ### Steps that can fail -/

/-- A step that can fail: a request to the controller, the end of a load of the charts with any
ticket, a load that is begun and ended at once, or a table that is asked for. -/
inductive Step (α : Type) where
  | update (op : Controller.Operation)
  | complete (t : Ticket) (result : Except SourceError (Charts α))
  | reload (source : Source α)
  | table (kind : TableKind) (source : Source α)

namespace Step

/-- The session after a step that is taken at an instant. -/
def run (now : Int) (s : Session α) : Step α → Session α
  | .update op => (s.updateRange now [op]).2
  | .complete t result => (s.complete t result).2
  | .reload source => (s.reload source).2
  | .table kind source => (s.ensureTable kind source).2

/-- Whether a step fails: the request is refused, the load has failed or is dropped, or the source
does not have the table. -/
def Fails (now : Int) (s : Session α) : Step α → Prop
  | .update op => ∃ e, (s.updateRange now [op]).1 = .error e
  | .complete t result => (s.complete t result).1 = .failed ∨ (s.complete t result).1 = .stale
  | .reload source => (s.reload source).1 = .failed ∨ (s.reload source).1 = .stale
  | .table kind source => ∃ e, (s.fetchNow kind source).answer = .error e

end Step

/-! ### Sessions with the same data -/

/-- A later session with the range, the charts and the tables of an earlier one. -/
structure Intact (s later : Session α) : Prop where
  range : later.controller.range = s.controller.range
  generation : later.controller.generation = s.controller.generation
  charts : later.charts = s.charts
  chartsGeneration : later.chartsGeneration = s.chartsGeneration
  tables : later.tables = s.tables
  budget : later.budget = s.budget
  tableLimit : later.tableLimit = s.tableLimit

namespace Intact

variable {s later latest : Session α}

/-- A session is intact as long as nothing happens. -/
theorem refl (s : Session α) : Intact s s :=
  ⟨rfl, rfl, rfl, rfl, rfl, rfl, rfl⟩

/-- What is intact after what is intact is intact. -/
theorem trans (h : Intact s later) (h' : Intact later latest) : Intact s latest where
  range := h'.range.trans h.range
  generation := h'.generation.trans h.generation
  charts := h'.charts.trans h.charts
  chartsGeneration := h'.chartsGeneration.trans h.chartsGeneration
  tables := h'.tables.trans h.tables
  budget := h'.budget.trans h.budget
  tableLimit := h'.tableLimit.trans h.tableLimit

/-- The charts are as stale as they were. -/
theorem chartsStale (h : Intact s later) : later.chartsStale = s.chartsStale := by
  unfold Session.chartsStale
  rw [h.chartsGeneration, h.generation]

/-- The tables that a view looks up are the same. -/
theorem tableSet (h : Intact s later) : later.tableSet = s.tableSet := by
  have htable : later.table? = s.table? := by
    funext kind
    unfold table?
    rw [h.tables]
  unfold Session.tableSet
  rw [htable]

end Intact

/-- **Views of intact sessions differ in their errors at most.** -/
theorem view_of_intact [Count α] {s later : Session α} (h : Intact s later) (mac : String) :
    later.view mac = { s.view mac with errors := later.errorTexts } := by
  unfold view
  rw [h.range, h.generation, h.chartsStale, h.charts, h.budget, h.tableSet, h.tableLimit]

/-! ### Steps that fail -/

section Failing

variable {s : Session α} {now : Int}

/-- A request that is refused leaves its error, and the expressions that it notes. -/
theorem intact_updateRange {op : Controller.Operation} {e : RangeError}
    (h : (s.updateRange now [op]).1 = .error e) : Intact s (s.updateRange now [op]).2 := by
  rcases s.updateRange_cases now op with
    ⟨range, generation, hchanged, -⟩ | ⟨-, hrange, hgeneration, htables, -⟩
  · rw [h] at hchanged
    simp at hchanged
  · have hkeeps := s.keeps_updateRange now op
    -- Neither the limits of the charts nor those of the tables are ever written.
    have hlimits : (s.updateRange now [op]).2.budget = s.budget ∧
        (s.updateRange now [op]).2.tableLimit = s.tableLimit := by
      rw [updateRange_one]
      unfold updateRangeAt
      rcases s.controller.applyAll [(now, op)] with ⟨_ | _ | _, c⟩
      all_goals exact ⟨rfl, rfl⟩
    exact ⟨hrange, hgeneration, hkeeps.charts, hkeeps.chartsGeneration, htables, hlimits.1,
      hlimits.2⟩

/-- A load that is not applied leaves its error, or nothing at all. -/
theorem intact_complete {t : Ticket} {result : Except SourceError (Charts α)}
    (h : (s.complete t result).1 = .failed ∨ (s.complete t result).1 = .stale) :
    Intact s (s.complete t result).2 := by
  by_cases hgen : t.generation = s.controller.generation
  · unfold complete at h ⊢
    rw [if_pos hgen] at h ⊢
    cases result with
    | ok charts => simp at h
    | error e => exact ⟨rfl, rfl, rfl, rfl, rfl, rfl, rfl⟩
  · rw [complete_of_ne hgen]
    exact .refl s

/-- A table that the source does not have leaves its error, unless it was there already. -/
theorem intact_ensureTable {kind : TableKind} {source : Source α} {e : SourceError}
    (h : (s.fetchNow kind source).answer = .error e) :
    Intact s (s.ensureTable kind source).2 := by
  by_cases hcached : s.isCached kind = true
  · rw [(s.ensureTable_of_cached kind source hcached).1]
    exact .refl s
  · rw [(s.ensureTable_of_not_cached kind source hcached).1, h]
    exact ⟨rfl, rfl, rfl, rfl, rfl, rfl, rfl⟩

end Failing

/-- **One step.** A step that fails leaves a session intact, whatever the session. -/
theorem Intact.step {s : Session α} {now : Int} {step : Step α} (h : step.Fails now s) :
    Intact s (step.run now s) := by
  cases step with
  | update op =>
    obtain ⟨e, hrefused⟩ := h
    exact intact_updateRange hrefused
  | complete t result => exact intact_complete h
  | reload source => exact intact_complete h
  | table kind source =>
    obtain ⟨e, hanswer⟩ := h
    exact intact_ensureTable hanswer

/-! ### Steps that fail one after the other -/

/-- Steps one after the other, each at an instant of its own. -/
def afterSteps (s : Session α) (steps : List (Int × Step α)) : Session α :=
  steps.foldl (fun s entry => entry.2.run entry.1 s) s

/-- All of some steps fail, each in the session that the ones before it leave behind. -/
def AllFail : Session α → List (Int × Step α) → Prop
  | _, [] => True
  | s, (now, step) :: steps => step.Fails now s ∧ AllFail (step.run now s) steps

/-- **An outage.** A session is intact after any number of steps that all fail. -/
theorem Intact.outage {s : Session α} {steps : List (Int × Step α)} (h : s.AllFail steps) :
    Intact s (s.afterSteps steps) := by
  induction steps generalizing s with
  | nil => exact .refl s
  | cons entry steps ih =>
    obtain ⟨hfirst, hrest⟩ := h
    exact (Intact.step hfirst).trans (ih hrest)

/-- **Failures leave what is shown intact.** In any session, reachable or not, take a step that
fails: a request that is refused, the end of a load or a reload that has failed or is dropped, or a
table that the source does not have. Then range, generation, charts, their staleness and every table
are as before, and so is the view of every device but for its list of errors. -/
theorem failed_step_shows_the_same [Count α] (now : Int) (s : Session α) (step : Step α)
    (h : step.Fails now s) :
    let later := step.run now s
    later.controller.range = s.controller.range ∧
    later.controller.generation = s.controller.generation ∧
    later.charts = s.charts ∧
    later.chartsStale = s.chartsStale ∧
    (∀ kind, later.tables kind = s.tables kind) ∧
    ∀ mac, ∃ errors, later.view mac = { s.view mac with errors } := by
  intro later
  have hintact : Intact s later := .step h
  refine ⟨hintact.range, hintact.generation, hintact.charts, hintact.chartsStale,
    fun kind => congrFun hintact.tables kind, fun mac => ?_⟩
  exact ⟨later.errorTexts, view_of_intact hintact mac⟩

/-- Expressions that cannot be read are noted and refused. The view has an error more, and shows the
table of the range from before. -/
theorem failed_step_shows_the_same_refused :
    let source : Source Int :=
      ⟨fun _ _ => .ok .empty, fun _ _ _ => .ok (.traffic [⟨.ofMac "aa", ⟨7, 5⟩⟩])⟩
    let s := (((start (.blank 0 .standard) {} none).updateRange 0
      [.absolute 1000 2000]).2.ensureTable .traffic source).2
    let step : Step Int := .update (.expressions "yesterday" "now")
    let later := step.run 0 s
    step.Fails 0 s ∧ later.controller.fromExpr = "yesterday" ∧
    s.errorTexts.length = 0 ∧ later.errorTexts.length = 1 ∧
    (s.view "aa").tables.traffic = some ⟨7, 5⟩ ∧
    ∀ mac, ∃ errors, later.view mac = { s.view mac with errors } := by
  intro source s step later
  have hfails : step.Fails 0 s := ⟨.expression "yesterday" .notNow, by rfl⟩
  obtain ⟨-, -, -, -, -, hview⟩ := failed_step_shows_the_same 0 s step hfails
  exact ⟨hfails, rfl, rfl, rfl, rfl, hview⟩

end TrafficBoard.Session
