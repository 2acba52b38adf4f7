import Mathlib
import TrafficBoard.Proofs.Range.Requests

namespace TrafficBoard.Controller

/-!
# Histories — the state of a controller read off the requests made to it

* `Run` is a controller with the clock and the log of the requests so far, newest first;
* `lastPreset`, `lastExpressions`, `lastBounds`, `lastMode` and `lastSuccess` search the log;
* `Run.state_of_history` says that these searches give the state, whatever the run.

Nothing here looks at the generation, which counts changes and says nothing about a request.
-/

/-! ### Runs -/

/-- A request that was made: the instant, the request and the answer. -/
structure Entry where
  now : Int
  op : Operation
  answer : Answer

/-- What happens to a controller: the clock moves, or a request is made. -/
inductive Event where
  | clock (now : Int)
  | request (op : Operation)

/-- A controller, the instant its clock shows, and the requests made to it, newest first. -/
structure Run where
  now : Int
  controller : Controller
  log : List Entry

namespace Run

/-- Makes a request and logs it. -/
def request (op : Operation) (r : Run) : Run where
  now := r.now
  controller := (r.controller.apply r.now op).2
  log := ⟨r.now, op, (r.controller.apply r.now op).1⟩ :: r.log

/-- One event. -/
def step (r : Run) : Event → Run
  | .clock now => { r with now }
  | .request op => r.request op

/-- Events one after the other. -/
def after (r : Run) (events : List Event) : Run :=
  events.foldl step r

/-- The run of the controller that repeats a kept selection, which counts as the first request. -/
def ofSelection (built : Int) (kept : Selection) : Run where
  now := built
  controller := Controller.ofSelection built kept
  log := [⟨built, replay kept, ((blank built kept).apply built (replay kept)).1⟩]

/-- That run has made its first request of a controller that has resolved nothing yet. -/
theorem ofSelection_eq_request (built : Int) (kept : Selection) :
    ofSelection built kept =
      ({ now := built, controller := blank built kept, log := [] } : Run).request (replay kept) :=
  rfl

end Run

/-! ### What a log says -/

namespace Entry

/-- Whether a request had a range. -/
def succeeded (e : Entry) : Bool :=
  e.answer.toBool

/-- The preset that a successful request selected by itself. -/
def preset? (e : Entry) : Option Preset :=
  match e.op, e.answer with
  | .preset p, .ok _ => some p
  | _, _ => none

/-- The expressions of a request, successful or not. -/
def expressions? (e : Entry) : Option (String × String) :=
  match e.op with
  | .expressions fromExpr toExpr => some (fromExpr, toExpr)
  | _ => none

/-- The bounds that a successful request selected by itself. -/
def bounds? (e : Entry) : Option (Int × Int) :=
  match e.op, e.answer with
  | .absolute fromMs toMs, .ok _ => some (fromMs, toMs)
  | _, _ => none

/-- The mode of a successful request; a refresh stays in the mode of the one before. -/
def mode? (e : Entry) : Option RangeMode :=
  match e.op, e.answer with
  | .preset _, .ok _ => some .preset
  | .expressions _ _, .ok _ => some .expr
  | .absolute _ _, .ok _ => some .absolute
  | .activate mode, .ok _ => some mode
  | _, _ => none

/-- The wording of the error of a request, if it had one. -/
def errorText? (e : Entry) : Option String :=
  match e.answer with
  | .ok _ => none
  | .error err => some err.message

end Entry

section Search

variable (kept : Selection) (log : List Entry)

/-- The preset of the last successful request for one, or the kept one. -/
def lastPreset : Preset :=
  (log.findSome? Entry.preset?).getD kept.preset

/-- The expressions of the last request with some, or the kept ones. -/
def lastExpressions : String × String :=
  (log.findSome? Entry.expressions?).getD (kept.fromExpr, kept.toExpr)

/-- The bounds of the last successful request for some, or the kept ones. -/
def lastBounds : Option Int × Option Int :=
  ((log.findSome? Entry.bounds?).map fun bounds => (some bounds.1, some bounds.2)).getD
    (kept.absoluteFrom, kept.absoluteTo)

/-- The mode of the last successful request. -/
def lastMode : RangeMode :=
  (log.findSome? Entry.mode?).getD .preset

/-- The selection that a log amounts to. -/
def remembered : Selection where
  version := Selection.currentVersion
  preset := lastPreset kept log
  mode := lastMode log
  fromExpr := (lastExpressions kept log).1
  toExpr := (lastExpressions kept log).2
  absoluteFrom := (lastBounds kept log).1
  absoluteTo := (lastBounds kept log).2

end Search

/-- The last successful request with the log before it. -/
def lastSuccess : List Entry → Option (Entry × List Entry)
  | [] => none
  | e :: earlier => if e.succeeded then some (e, earlier) else lastSuccess earlier

/-! ### One more request in the log -/

section Remembered

variable (kept : Selection) (log : List Entry) (now : Int) (op : Operation)

/-- The selection before any request is the kept one, in the first mode. -/
theorem remembered_nil (built : Int) : (blank built kept).selection = remembered kept [] := rfl

/-- A request that failed leaves its expressions in the log. -/
theorem remembered_failed (err : RangeError) :
    remembered kept (⟨now, op, .error err⟩ :: log) = op.note (remembered kept log) := by
  cases op <;> rfl

/-- A request that succeeded leaves all its arguments in the log. -/
theorem remembered_succeeded (update : Update) :
    remembered kept (⟨now, op, .ok update⟩ :: log) = op.store (remembered kept log) := by
  cases op <;> rfl

end Remembered

/-! ### What a run keeps to -/

/-- The range of a log: what the last successful request resolved to at its instant, and the day
before the start if there is none. -/
def RangeOf (built : Int) (kept : Selection) (log : List Entry) (range : TimeRange) : Prop :=
  match lastSuccess log with
  | some (e, earlier) => e.op.resolve e.now (remembered kept earlier) = .ok range
  | none => range = .lastDay built

/-- Every answer is what the inputs of its request resolve to: the same error, or no error. -/
def AnswersOf (kept : Selection) (log : List Entry) : Prop :=
  ∀ e earlier, (e :: earlier) <:+ log → ∀ err,
    e.answer = .error err ↔ e.op.resolve e.now (remembered kept earlier) = .error err

/-- The state of a run is what its log says. -/
structure Recorded (built : Int) (kept : Selection) (r : Run) : Prop where
  selection : r.controller.selection = remembered kept r.log
  range : RangeOf built kept r.log r.controller.range
  error : r.controller.errorMessage = r.log.head?.bind Entry.errorText?
  answers : AnswersOf kept r.log

/-- A further answer that is right leaves all of them right. -/
theorem AnswersOf.cons {kept : Selection} {log : List Entry} {e : Entry}
    (hlog : AnswersOf kept log)
    (he : ∀ err, e.answer = .error err ↔ e.op.resolve e.now (remembered kept log) = .error err) :
    AnswersOf kept (e :: log) := by
  intro e' earlier hsuffix
  -- The log before the further entry is the one its request was made with.
  rcases List.suffix_cons_iff.mp hsuffix with heq | htail
  · obtain ⟨rfl, rfl⟩ := List.cons.inj heq
    exact he
  · exact hlog e' earlier htail

/-- **One request.** What its log says stays true of a run. -/
theorem Recorded.request {built : Int} {kept : Selection} {r : Run}
    (h : Recorded built kept r) (op : Operation) : Recorded built kept (r.request op) := by
  obtain ⟨hselection, hrange, -, hanswers⟩ := h
  rcases r.controller.apply_cases r.now op with ⟨e, hop, hdone⟩ | ⟨target, hop, hdone⟩
  · -- Refused: the entry is skipped by every search but the one for expressions.
    rw [hselection] at hop
    have hans : (r.request op).log = ⟨r.now, op, .error e⟩ :: r.log := by
      rw [← hdone.answer]
      rfl
    constructor
    · rw [hans, remembered_failed, ← hselection]
      exact hdone.selection
    · rw [hans]
      show RangeOf built kept r.log (r.controller.apply r.now op).2.range
      rw [hdone.range]
      exact hrange
    · rw [hans]
      show (r.controller.apply r.now op).2.errorMessage = some e.message
      rw [errorMessage, hdone.error]
      rfl
    · rw [hans]
      refine hanswers.cons fun err => ?_
      rw [hop]
      simp
  · -- Granted: the entry is the last success, and its range is the one that was taken over.
    rw [hselection] at hop
    obtain ⟨update, hans⟩ : ∃ update, (r.request op).log = ⟨r.now, op, .ok update⟩ :: r.log :=
      ⟨_, by rw [← hdone.answer]; rfl⟩
    constructor
    · rw [hans, remembered_succeeded, ← hselection]
      exact hdone.selection
    · rw [hans]
      show op.resolve r.now (remembered kept r.log) = .ok (r.controller.apply r.now op).2.range
      rw [hdone.range]
      exact hop
    · rw [hans]
      show (r.controller.apply r.now op).2.errorMessage = none
      rw [errorMessage, hdone.error]
      rfl
    · rw [hans]
      refine hanswers.cons fun err => ?_
      rw [hop]
      simp

/-- One event: a clock that moves changes neither the controller nor the log. -/
theorem Recorded.step {built : Int} {kept : Selection} {r : Run}
    (h : Recorded built kept r) (event : Event) : Recorded built kept (r.step event) := by
  cases event with
  | clock now => exact ⟨h.selection, h.range, h.error, h.answers⟩
  | request op => exact h.request op

/-- A whole run. -/
theorem Recorded.after {built : Int} {kept : Selection} {r : Run}
    (h : Recorded built kept r) (events : List Event) : Recorded built kept (r.after events) := by
  induction events generalizing r with
  | nil => exact h
  | cons event events ih => exact ih (h.step event)

/-- Before any request, the state is what the empty log says. -/
theorem recorded_blank (built : Int) (kept : Selection) :
    Recorded built kept { now := built, controller := blank built kept, log := [] } where
  selection := remembered_nil kept built
  range := rfl
  error := rfl
  answers e earlier hsuffix := absurd (List.suffix_nil.mp hsuffix) (by simp)

/-- A run from a kept selection has made a request: the one that repeats it. -/
theorem Run.log_after_ne_nil (r : Run) (h : r.log ≠ []) (events : List Event) :
    (r.after events).log ≠ [] := by
  induction events generalizing r with
  | nil => exact h
  | cons event events ih =>
    cases event with
    | clock now => exact ih _ h
    | request op => exact ih _ (List.cons_ne_nil _ _)

/-- **The state of a controller is determined by its history.** Take the controller made from any
kept selection at any instant, any moves of its clock and any requests. Then each part of its state
is found in the log: preset, expressions, bounds and mode by the search for the last request that
set them, the range as what the last successful request resolved to when it was made, and the error
as that of the last request. Which requests have failed is itself determined by what they resolved
to. -/
theorem Run.state_of_history (built : Int) (kept : Selection) (events : List Event) :
    let r := (Run.ofSelection built kept).after events
    let c := r.controller
    c.preset = lastPreset kept r.log ∧
    (c.fromExpr, c.toExpr) = lastExpressions kept r.log ∧
    (c.absoluteFrom, c.absoluteTo) = lastBounds kept r.log ∧
    c.mode = lastMode r.log ∧
    (match lastSuccess r.log with
      | some (e, earlier) => e.op.resolve e.now (remembered kept earlier) = .ok c.range
      | none => c.range = .lastDay built) ∧
    c.range.fromMs < c.range.toMs ∧
    (∃ e earlier, r.log = e :: earlier ∧ c.errorMessage = e.errorText?) ∧
    (∀ e earlier, (e :: earlier) <:+ r.log → ∀ err,
      e.answer = .error err ↔ e.op.resolve e.now (remembered kept earlier) = .error err) := by
  intro r c
  -- The first request is made with an empty log, the events go on from there.
  have hfirst : Recorded built kept (ofSelection built kept) := by
    rw [ofSelection_eq_request]
    exact (recorded_blank built kept).request (replay kept)
  obtain ⟨hselection, hrange, herror, hanswers⟩ := hfirst.after events
  obtain ⟨-, hpreset, hmode, hfrom, hto, habsFrom, habsTo⟩ := Selection.mk.inj hselection
  refine ⟨hpreset, Prod.ext hfrom hto, Prod.ext habsFrom habsTo, hmode, hrange, c.range.ordered,
    ?_, hanswers⟩
  have hne : r.log ≠ [] := Run.log_after_ne_nil _ (List.cons_ne_nil _ _) events
  obtain ⟨e, earlier, hlog⟩ := List.exists_cons_of_ne_nil hne
  refine ⟨e, earlier, hlog, ?_⟩
  rw [herror, hlog]
  rfl

end TrafficBoard.Controller
