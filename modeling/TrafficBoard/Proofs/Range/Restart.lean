import Mathlib
import TrafficBoard.Proofs.Range.History
import TrafficBoard.Proofs.Range.Presets

namespace TrafficBoard

/-!
# Restarts — controllers that repeat a kept selection

* `Selection.HasBounds` says that fixed bounds are there if they are selected;
* `Controller.ofSelection_of_ok` and `ofSelection_of_error` say which controller comes of a
  selection that resolves and of one that does not, `ofSelection_of_not_hasBounds` that missing
  bounds make it one of the preset;
* `Controller.honours_iff` says for which selections the controller is in the kept mode or on the
  last 24 hours with an error;
* `Controller.Settled` says that a controller shows what its stored selection resolves to at an
  instant, and `Controller.settled_apply` that every request without an error leaves one behind;
* `Controller.Run.restart_and_refresh` says that repeating the selection of a run at the instant of
  its last request, or refreshing it then, changes nothing.
-/

/-- Fixed bounds are there if they are selected. -/
def Selection.HasBounds (s : Selection) : Prop :=
  s.mode = .absolute → s.absoluteFrom.isSome ∧ s.absoluteTo.isSome

instance (s : Selection) : Decidable s.HasBounds :=
  inferInstanceAs (Decidable (_ → _))

/-- Only fixed bounds can be missing. -/
theorem Selection.hasBounds_of_ne {s : Selection} (h : s.mode ≠ .absolute) : s.HasBounds :=
  fun hmode => absurd hmode h

namespace Controller

/-! ### Controllers of a selection -/

/-- A controller is its selection with range, generation and error. -/
theorem eq_of_selection_eq {c d : Controller} (hselection : c.selection = d.selection)
    (hrange : c.range = d.range) (hgeneration : c.generation = d.generation)
    (herror : c.error = d.error) : c = d := by
  obtain ⟨-, hpreset, hmode, hfrom, hto, habsFrom, habsTo⟩ := Selection.mk.inj hselection
  cases c
  cases d
  simp_all

section Kept

variable {now : Int} {kept : Selection}

/-- A selection that resolves has its bounds. -/
theorem hasBounds_of_resolveStored {range : TimeRange}
    (h : resolveStored now kept kept.mode = .ok range) : kept.HasBounds := by
  intro hmode
  rw [hmode, resolveStored] at h
  cases hfrom : kept.absoluteFrom with
  | none =>
    rw [hfrom] at h
    simp at h
  | some fromMs =>
    cases hto : kept.absoluteTo with
    | none =>
      rw [hfrom, hto] at h
      simp at h
    | some toMs => exact ⟨rfl, rfl⟩

/-- With its bounds there, a selection is repeated in its own mode: the request asks for what is
stored for that mode, and stores the selection as it is. -/
theorem replay_of_hasBounds (h : kept.HasBounds) :
    (replay kept).resolve now (blank now kept).selection = resolveStored now kept kept.mode ∧
      (replay kept).store (blank now kept).selection =
        { kept with version := Selection.currentVersion } := by
  obtain ⟨version, preset, mode, fromExpr, toExpr, absoluteFrom, absoluteTo⟩ := kept
  cases mode with
  | preset => exact ⟨rfl, rfl⟩
  | expr => exact ⟨rfl, rfl⟩
  | absolute =>
    obtain ⟨hfrom, hto⟩ := h rfl
    obtain ⟨fromMs, rfl⟩ := Option.isSome_iff_exists.1 hfrom
    obtain ⟨toMs, rfl⟩ := Option.isSome_iff_exists.1 hto
    exact ⟨rfl, rfl⟩

/-- Repeating a selection notes nothing new. -/
theorem note_replay :
    (replay kept).note (blank now kept).selection = (blank now kept).selection := by
  unfold replay
  split
  all_goals rfl

/-- **A selection that resolves is repeated:** its mode is selected, with its range as the first
one. -/
theorem ofSelection_of_ok {range : TimeRange}
    (h : resolveStored now kept kept.mode = .ok range) :
    ofSelection now kept = { blank now kept with mode := kept.mode, range, generation := 1 } := by
  obtain ⟨hresolve, hstore⟩ := @replay_of_hasBounds now kept (hasBounds_of_resolveStored h)
  have houtcome := (blank now kept).outcome_apply now (replay kept)
  rw [hresolve, h, hstore] at houtcome
  -- The first range counts as a change, even where it is the last 24 hours.
  have hfirst : ¬ (range = (blank now kept).range ∧ 0 < (blank now kept).generation) :=
    fun h => absurd h.2 (lt_irrefl 0)
  exact eq_of_selection_eq houtcome.selection houtcome.range
    (houtcome.generation.trans (if_neg hfirst)) houtcome.error

/-- **A selection that does not resolve leaves the last 24 hours,** and the error. -/
theorem ofSelection_of_error (hbounds : kept.HasBounds) {e : RangeError}
    (h : resolveStored now kept kept.mode = .error e) :
    ofSelection now kept = { blank now kept with error := some e } := by
  obtain ⟨hresolve, -⟩ := @replay_of_hasBounds now kept hbounds
  have houtcome := (blank now kept).outcome_apply now (replay kept)
  rw [hresolve, h, note_replay] at houtcome
  exact eq_of_selection_eq houtcome.selection houtcome.range houtcome.generation houtcome.error

/-- **Missing bounds count as a selected preset.** -/
theorem ofSelection_of_not_hasBounds (h : ¬ kept.HasBounds) :
    ofSelection now kept = ofSelection now { kept with mode := .preset } := by
  obtain ⟨version, preset, mode, fromExpr, toExpr, absoluteFrom, absoluteTo⟩ := kept
  cases mode with
  | preset => rfl
  | expr => exact absurd (Selection.hasBounds_of_ne RangeMode.noConfusion) h
  | absolute =>
    cases absoluteFrom with
    | none => rfl
    | some fromMs =>
      cases absoluteTo with
      | none => rfl
      | some toMs => exact absurd (fun _ => ⟨rfl, rfl⟩) h

end Kept

/-! ### What a kept selection is owed -/

/-- What a controller made from a kept selection owes to it: the kept mode with the range that it
resolves to, or the last 24 hours with an error where it does not resolve. -/
def Honours (now : Int) (kept : Selection) (c : Controller) : Prop :=
  match resolveStored now kept kept.mode with
  | .ok range => c.mode = kept.mode ∧ c.range = range ∧ c.errorMessage = none
  | .error _ => c.range = .lastDay now ∧ c.errorMessage.isSome

/-- **A kept selection is honoured just when its bounds are there, or when not even its preset
resolves.** Without the bounds of the absolute mode the preset takes their place, with no error to
show for it. -/
theorem honours_iff (now : Int) (kept : Selection) :
    Honours now kept (ofSelection now kept) ↔
      kept.HasBounds ∨ ¬ Number.InWord (now - kept.preset.lengthMs) := by
  unfold Honours
  cases hstored : resolveStored now kept kept.mode with
  | ok range =>
    rw [ofSelection_of_ok hstored]
    exact ⟨fun _ => Or.inl (hasBounds_of_resolveStored hstored), fun _ => ⟨rfl, rfl, rfl⟩⟩
  | error e =>
    by_cases hbounds : kept.HasBounds
    · rw [ofSelection_of_error hbounds hstored]
      exact ⟨fun _ => Or.inl hbounds, fun _ => ⟨rfl, rfl⟩⟩
    · -- What is repeated is the preset, which fails only with a start that is no word.
      have hpreset : resolveStored now { kept with mode := .preset } .preset = _ :=
        kept.preset.resolve_fromExpr now
      rw [ofSelection_of_not_hasBounds hbounds]
      by_cases hword : Number.InWord (now - kept.preset.lengthMs)
      · rw [if_pos hword] at hpreset
        rw [ofSelection_of_ok hpreset]
        simp [errorMessage, blank, hbounds, hword]
      · rw [if_neg hword] at hpreset
        rw [ofSelection_of_error (Selection.hasBounds_of_ne RangeMode.noConfusion) hpreset]
        exact ⟨fun _ => Or.inr hword, fun _ => ⟨rfl, rfl⟩⟩

/-- Fixed bounds that were never selected are replaced by the week of the preset: the mode is the
one of presets, the range not the last 24 hours, and there is no error. -/
theorem preset_instead_of_missing_bounds :
    let kept : Selection := { Selection.standard with preset := .last7Days, mode := .absolute }
    let c := ofSelection 1705276800000 kept
    c.mode = .preset ∧ c.range = ⟨1704672000000, 1705276800000, by decide⟩ ∧
      c.errorMessage = none ∧ ¬ Honours 1705276800000 kept c := by
  intro kept c
  have hpreset : resolveStored 1705276800000 { kept with mode := .preset } .preset =
      .ok (Preset.rangeAt .last7Days 1705276800000) := by
    refine (Preset.resolve_fromExpr .last7Days 1705276800000).trans (if_pos ?_)
    decide
  have hc : c = { blank 1705276800000 kept with
      mode := .preset, range := Preset.rangeAt .last7Days 1705276800000, generation := 1 } := by
    show ofSelection 1705276800000 kept = _
    rw [ofSelection_of_not_hasBounds (by decide), ofSelection_of_ok hpreset]
    rfl
  rw [hc]
  refine ⟨rfl, rfl, rfl, ?_⟩
  rintro ⟨-, herror⟩
  simp [errorMessage, blank] at herror

/-! ### Settled controllers -/

/-- A controller without an error shows what its stored selection resolves to at an instant. -/
structure Settled (now : Int) (c : Controller) : Prop where
  error : c.error = none
  range : resolveStored now c.selection c.mode = .ok c.range
  generation : 0 < c.generation

/-- What a request asks for is what the selection that it stores resolves to. -/
theorem resolveStored_store {now : Int} {kept : Selection} {op : Operation} {range : TimeRange}
    (h : op.resolve now kept = .ok range) :
    resolveStored now (op.store kept) (op.store kept).mode = .ok range := by
  cases op with
  | activate mode =>
    -- Going back to a mode stores nothing but the mode, which is not looked at.
    cases mode
    all_goals exact h
  | _ => exact h

/-- **One request.** A request without an error leaves a settled controller behind, whatever the
controller was before. -/
theorem settled_apply {now : Int} {op : Operation} {c : Controller}
    (h : (c.apply now op).2.error = none) : Settled now (c.apply now op).2 := by
  rcases c.apply_cases now op with ⟨e, -, hdone⟩ | ⟨range, hop, hdone⟩
  · rw [hdone.error] at h
    simp at h
  · refine ⟨h, ?_, ?_⟩
    · show resolveStored now _ (c.apply now op).2.selection.mode = _
      rw [hdone.selection, hdone.range]
      exact resolveStored_store hop
    · rw [hdone.generation]
      split
      · rename_i hsame
        exact hsame.2
      · exact Nat.succ_pos _

section Settled

variable {now : Int} {c : Controller}

/-- Repeating the selection of a settled controller at the same instant makes the same controller
once more, with its range as the first one. -/
theorem Settled.ofSelection_eq (h : Settled now c) :
    ofSelection now c.selection = { c with generation := 1 } := by
  rw [ofSelection_of_ok h.range]
  refine eq_of_selection_eq rfl rfl rfl ?_
  exact h.error.symm

/-- Refreshing a settled controller at the same instant changes nothing. -/
theorem Settled.refresh_eq (h : Settled now c) : c.apply now .refresh = (.ok .unchanged, c) := by
  have houtcome := c.outcome_apply now .refresh
  rw [show Operation.resolve now c.selection .refresh = .ok c.range from h.range] at houtcome
  have hsame : c.range = c.range ∧ 0 < c.generation := ⟨rfl, h.generation⟩
  refine Prod.ext (houtcome.answer.trans (by rw [if_pos hsame])) ?_
  exact eq_of_selection_eq houtcome.selection houtcome.range
    (houtcome.generation.trans (if_pos hsame)) (houtcome.error.trans h.error.symm)

end Settled

/-! ### Runs -/

namespace Run

/-- The controller of a run is the one that its last request left behind. -/
def AfterRequest (r : Run) : Prop :=
  ∃ before e earlier, r.log = e :: earlier ∧
    r.controller = (Controller.apply e.now e.op before).2

/-- A run from a kept selection has made the request that repeats it. -/
theorem afterRequest_ofSelection (built : Int) (kept : Selection) :
    (ofSelection built kept).AfterRequest :=
  ⟨blank built kept, _, [], rfl, rfl⟩

/-- One event: a clock that moves leaves controller and log alone. -/
theorem AfterRequest.step {r : Run} (h : r.AfterRequest) (event : Event) :
    (r.step event).AfterRequest := by
  cases event with
  | clock now => exact h
  | request op => exact ⟨r.controller, _, r.log, rfl, rfl⟩

/-- A whole run. -/
theorem AfterRequest.after {r : Run} (h : r.AfterRequest) (events : List Event) :
    (r.after events).AfterRequest := by
  induction events generalizing r with
  | nil => exact h
  | cons event events ih => exact ih (h.step event)

/-- **Restart and refresh are transparent.** Take the controller made from any kept selection, the
standard one that `start` takes included, any moves of its clock and any requests. If it has no
error, then at the instant of the last request a controller made from its selection is the same but
for the generation, which starts anew, and has the same selection; and refreshing it then is
answered with no change and leaves it as it is. -/
theorem restart_and_refresh (built : Int) (kept : Selection) (events : List Event) :
    let r := (ofSelection built kept).after events
    let c := r.controller
    c.errorMessage = none → ∃ e earlier, r.log = e :: earlier ∧
      Controller.ofSelection e.now c.selection = { c with generation := 1 } ∧
      (Controller.ofSelection e.now c.selection).selection = c.selection ∧
      c.apply e.now .refresh = (.ok .unchanged, c) := by
  intro r c hfine
  obtain ⟨before, e, earlier, hlog, hlast⟩ :=
    (afterRequest_ofSelection built kept).after events
  have herror : (Controller.apply e.now e.op before).2.error = none := by
    rw [← hlast]
    exact Option.map_eq_none_iff.1 hfine
  have hsettled : Settled e.now c := by
    show Settled e.now ((ofSelection built kept).after events).controller
    rw [hlast]
    exact settled_apply herror
  refine ⟨e, earlier, hlog, hsettled.ofSelection_eq, ?_, hsettled.refresh_eq⟩
  rw [hsettled.ofSelection_eq]
  rfl

/-- Bounds are selected at instant 5, after expressions that did not resolve, and gone back to at
instant 7. The selection that is kept has the failed expressions in it, and the preset of before. -/
theorem restart_and_refresh_after_failure :
    let r := (ofSelection 0 { Selection.standard with
        mode := .absolute, absoluteFrom := some 1000, absoluteTo := some 2000 }).after
      [.request (.expressions "yesterday" "now"), .clock 5, .request (.absolute 3000 4000),
        .clock 7, .request (.activate .expr), .request (.activate .absolute), .clock 9]
    let c := r.controller
    c.errorMessage = none ∧ c.fromExpr = "yesterday" ∧ c.generation = 2 ∧
      Controller.ofSelection 7 c.selection = { c with generation := 1 } ∧
      c.apply 7 .refresh = (.ok .unchanged, c) := by
  intro r c
  have hfine : c.errorMessage = none := by rfl
  obtain ⟨e, earlier, hlog, hrestart, -, hrefresh⟩ := restart_and_refresh 0
    { Selection.standard with
      mode := .absolute, absoluteFrom := some 1000, absoluteTo := some 2000 }
    [.request (.expressions "yesterday" "now"), .clock 5, .request (.absolute 3000 4000),
      .clock 7, .request (.activate .expr), .request (.activate .absolute), .clock 9] hfine
  have hnow : e.now = 7 := by
    have hhead := congrArg (fun log => log.head?.map Entry.now) hlog
    exact (Option.some.inj hhead).symm
  rw [hnow] at hrestart hrefresh
  exact ⟨hfine, rfl, rfl, hrestart, hrefresh⟩

end Run

end Controller

end TrafficBoard
