import Mathlib
import TrafficBoard.Dashboard.Session
import TrafficBoard.Proofs.Range.Requests

namespace TrafficBoard

/-!
# Cancellation — loads of charts that end in any order

* `Controller.Follows` relates a controller to one some requests later: generations never go back,
  and the range stays as long as the generation does;
* `Ticket.Dated` says what a ticket may be at a controller, and `Follows` carries it along;
* `Session.Run` is a session with the tickets issued so far and the loads that have ended;
* `Session.Run.soft_cancellation` says which charts a session shows, whatever the run.

A generation stands for one stretch of time with one range. The tickets of the present generation
are the ones that may still deliver, and they all bear the present range.
-/

/-! ### Generations -/

namespace Controller

/-- A controller that comes after another one: the generation has not gone back, and if it is the
same the range is too. -/
structure Follows (c later : Controller) : Prop where
  generation : c.generation ≤ later.generation
  range : later.generation = c.generation → later.range = c.range

/-- A controller follows itself. -/
theorem Follows.refl (c : Controller) : Follows c c :=
  ⟨le_refl _, fun _ => rfl⟩

/-- What follows a controller that follows another one follows that one too. -/
theorem Follows.trans {c later latest : Controller} (h : Follows c later)
    (h' : Follows later latest) : Follows c latest := by
  refine ⟨h.generation.trans h'.generation, fun heq => ?_⟩
  have hsame : later.generation = c.generation := by
    have := h.generation
    have := h'.generation
    omega
  rw [h'.range (heq.trans hsame.symm), h.range hsame]

/-- A request that is refused keeps range and generation; one that is granted counts up unless the
range is the same. -/
theorem follows_apply (now : Int) (op : Operation) (c : Controller) :
    Follows c (c.apply now op).2 := by
  rcases c.apply_cases now op with ⟨e, -, hdone⟩ | ⟨target, -, hdone⟩
  · exact ⟨hdone.generation.ge, fun _ => hdone.range⟩
  · by_cases h : target = c.range ∧ 0 < c.generation
    · have hg := hdone.generation
      rw [if_pos h] at hg
      exact ⟨hg.ge, fun _ => hdone.range.trans h.1⟩
    · have hg := hdone.generation
      rw [if_neg h] at hg
      refine ⟨by omega, fun heq => ?_⟩
      -- The generation has moved on, so it cannot be the same.
      omega

/-- A change of the range is a new generation. -/
theorem generation_of_changed {now : Int} {op : Operation} {c : Controller} {range : TimeRange}
    {generation : Nat} (h : (c.apply now op).1 = .ok (.changed range generation)) :
    (c.apply now op).2.generation = c.generation + 1 := by
  rcases c.apply_cases now op with ⟨e, -, hdone⟩ | ⟨target, -, hdone⟩
  · rw [hdone.answer] at h
    simp at h
  · rw [hdone.answer] at h
    rw [hdone.generation]
    split at h
    · simp at h
    · rename_i hmoved
      rw [if_neg hmoved]

end Controller

/-- What a ticket may be at a controller: of a generation that there has been, and with the range of
the controller if it is of the present one. -/
structure Ticket.Dated (t : Ticket) (c : Controller) : Prop where
  generation : t.generation ≤ c.generation
  bounds : t.generation = c.generation →
    t.fromSec = c.range.fromSeconds ∧ t.toSec = c.range.toSeconds

/-- A ticket stays dated while requests are made. -/
theorem Ticket.Dated.follow {t : Ticket} {c later : Controller} (h : t.Dated c)
    (hlater : c.Follows later) : t.Dated later := by
  refine ⟨h.generation.trans hlater.generation, fun heq => ?_⟩
  -- Equal to the later generation, the ticket leaves no room for a change in between.
  have hsame : later.generation = c.generation := by
    have := h.generation
    have := hlater.generation
    omega
  rw [hlater.range hsame]
  exact h.bounds (heq.trans hsame)

namespace Session

variable {α : Type}

/-- A ticket that is issued is dated. -/
theorem dated_ticket (s : Session α) : s.ticket.Dated s.controller :=
  ⟨le_refl _, fun _ => ⟨rfl, rfl⟩⟩

/-- A session that comes after another one with the same charts. -/
structure Keeps (s later : Session α) : Prop where
  controller : s.controller.Follows later.controller
  charts : later.charts = s.charts
  chartsGeneration : later.chartsGeneration = s.chartsGeneration

/-- A session with the same controller and charts. -/
theorem Keeps.of_eq {s later : Session α} (hcontroller : later.controller = s.controller)
    (hcharts : later.charts = s.charts)
    (hgeneration : later.chartsGeneration = s.chartsGeneration) : s.Keeps later :=
  ⟨hcontroller ▸ .refl _, hcharts, hgeneration⟩

/-- One request is made at its instant. -/
theorem updateRange_one (s : Session α) (now : Int) (op : Controller.Operation) :
    s.updateRange now [op] = s.updateRangeAt [(now, op)] := rfl

/-- A request is made of the controller: the answer is its answer, and it is the one after that. -/
theorem updateRange_single (s : Session α) (now : Int) (op : Controller.Operation) :
    (s.updateRange now [op]).1 = (s.controller.apply now op).1 ∧
      (s.updateRange now [op]).2.controller = (s.controller.apply now op).2 := by
  rw [updateRange_one]
  unfold updateRangeAt
  rw [show s.controller.applyAll [(now, op)] = s.controller.apply now op from rfl]
  rcases s.controller.apply now op with ⟨_ | _ | _, c⟩
  all_goals exact ⟨rfl, rfl⟩

/-- A request leaves the charts alone, whatever it answers. -/
theorem keeps_updateRange (s : Session α) (now : Int) (op : Controller.Operation) :
    s.Keeps (s.updateRange now [op]).2 := by
  refine ⟨?_, ?_, ?_⟩
  · rw [(s.updateRange_single now op).2]
    exact Controller.follows_apply now op _
  -- Dropping the tables and the errors leaves the charts alone.
  all_goals
    rw [updateRange_one]
    unfold updateRangeAt
    rcases s.controller.applyAll [(now, op)] with ⟨_ | _ | _, c⟩
    all_goals rfl

/-- A table that is fetched leaves controller and charts alone. -/
theorem keeps_ensureTable (s : Session α) (kind : TableKind) (source : Source α) :
    s.Keeps (s.ensureTable kind source).2 := by
  unfold ensureTable
  by_cases hcached : s.isCached kind
  · rw [if_pos hcached]
    exact .of_eq rfl rfl rfl
  · rw [if_neg hcached]
    rcases hanswer : source.table kind s.controller.range.fromSeconds
      s.controller.range.toSeconds with e | table
    all_goals
      simp only [hanswer, receive]
      exact .of_eq rfl rfl rfl

/-- A load of an earlier generation changes nothing. -/
theorem complete_of_ne {s : Session α} {t : Ticket} (h : t.generation ≠ s.controller.generation)
    (result : Except SourceError (Charts α)) : s.complete t result = (.stale, s) := by
  unfold complete
  rw [if_neg h]

/-- The end of a load applies the charts, or leaves them alone with another outcome. -/
theorem complete_cases (s : Session α) (t : Ticket) (result : Except SourceError (Charts α)) :
    (∃ charts, result = .ok charts ∧ s.complete t result = (.applied,
      { s with charts, chartsGeneration := some t.generation, chartError := none })) ∨
    ((s.complete t result).1 ≠ .applied ∧ s.Keeps (s.complete t result).2) := by
  by_cases hgen : t.generation = s.controller.generation
  · unfold complete
    rw [if_pos hgen]
    cases result with
    | ok charts => exact Or.inl ⟨charts, rfl, rfl⟩
    | error e => exact Or.inr ⟨LoadOutcome.noConfusion, .of_eq rfl rfl rfl⟩
  · rw [complete_of_ne hgen]
    exact Or.inr ⟨LoadOutcome.noConfusion, .of_eq rfl rfl rfl⟩

/-- The end of a load never takes the controller back. -/
theorem follows_complete (s : Session α) (t : Ticket) (result : Except SourceError (Charts α)) :
    s.controller.Follows (s.complete t result).2.controller := by
  rcases s.complete_cases t result with ⟨charts, -, hdone⟩ | ⟨-, hkeeps⟩
  · rw [hdone]
    exact .refl _
  · exact hkeeps.controller

/-! ### Runs -/

/-- What happens to a session. A load ends with any result, for any of the tickets issued before. -/
inductive Event (α : Type) where
  | clock (now : Int)
  | update (op : Controller.Operation)
  | issue
  | table (kind : TableKind) (source : Source α)
  | reload (source : Source α)
  | complete (index : Nat) (result : Except SourceError (Charts α))

/-- A load that has ended. -/
structure Completion (α : Type) where
  ticket : Ticket
  result : Except SourceError (Charts α)
  outcome : LoadOutcome

/-- A session, the instant its clock shows, the tickets issued and the loads that have ended, newest
first. -/
structure Run (α : Type) where
  now : Int
  session : Session α
  issued : List Ticket
  completed : List (Completion α)

namespace Run

/-- A session without any data and without a load. -/
def start (now : Int) (c : Controller) (budget : Budget) (tableLimit : Option Nat) : Run α where
  now := now
  session := .start c budget tableLimit
  issued := []
  completed := []

/-- Ends a load and logs it. -/
def complete (t : Ticket) (result : Except SourceError (Charts α)) (r : Run α) : Run α where
  now := r.now
  session := (r.session.complete t result).2
  issued := r.issued
  completed := ⟨t, result, (r.session.complete t result).1⟩ :: r.completed

/-- Begins a load and ends it at once. -/
def reload (source : Source α) (r : Run α) : Run α where
  now := r.now
  session := (r.session.reload source).2
  issued := r.issued
  completed :=
    ⟨r.session.ticket, source.charts r.session.ticket.fromSec r.session.ticket.toSec,
      (r.session.reload source).1⟩ :: r.completed

/-- One event. -/
def step (r : Run α) : Event α → Run α
  | .clock now => { r with now }
  | .update op => { r with session := (r.session.updateRange r.now [op]).2 }
  | .issue => { r with issued := r.issued ++ [r.session.ticket] }
  | .table kind source => { r with session := (r.session.ensureTable kind source).2 }
  | .reload source => r.reload source
  | .complete index result =>
    match r.issued[index]? with
    | some t => r.complete t result
    | none => r

/-- Events one after the other. -/
def after (r : Run α) (events : List (Event α)) : Run α :=
  events.foldl step r

/-- The last load that was applied. -/
def lastApplied (r : Run α) : Option (Completion α) :=
  r.completed.find? fun done => done.outcome = .applied

/-- A reload is the end of a load with the ticket of the moment. -/
theorem reload_eq_complete (source : Source α) (r : Run α) :
    r.reload source =
      r.complete r.session.ticket
        (source.charts r.session.ticket.fromSec r.session.ticket.toSec) := rfl

/-! ### What a run keeps to -/

/-- The tickets are dated, and the charts are those of the last load that was applied. -/
structure Sound (r : Run α) : Prop where
  issued : ∀ t ∈ r.issued, t.Dated r.session.controller
  applied : ∀ done, r.lastApplied = some done →
    done.result = .ok r.session.charts ∧
      r.session.chartsGeneration = some done.ticket.generation ∧
      done.ticket.Dated r.session.controller
  empty : r.lastApplied = none → r.session.charts = .empty ∧ r.session.chartsGeneration = none

/-- A session without any data is sound. -/
theorem sound_start (now : Int) (c : Controller) (budget : Budget) (tableLimit : Option Nat) :
    Sound (start now c budget tableLimit : Run α) where
  issued t ht := absurd ht List.not_mem_nil
  applied done hdone := by simp [lastApplied, start] at hdone
  empty _ := ⟨rfl, rfl⟩

/-- What leaves tickets and charts alone keeps a run sound. -/
theorem Sound.keeps {r later : Run α} (h : r.Sound) (hissued : later.issued = r.issued)
    (hlast : later.lastApplied = r.lastApplied) (hkeeps : r.session.Keeps later.session) :
    later.Sound where
  issued t ht := (h.issued t (hissued ▸ ht)).follow hkeeps.controller
  applied done hdone := by
    obtain ⟨hresult, hgen, hdated⟩ := h.applied done (hlast ▸ hdone)
    exact ⟨by rw [hresult, hkeeps.charts], by rw [hkeeps.chartsGeneration, hgen],
      hdated.follow hkeeps.controller⟩
  empty hnone := by
    obtain ⟨hempty, hgen⟩ := h.empty (hlast ▸ hnone)
    exact ⟨by rw [hkeeps.charts, hempty], by rw [hkeeps.chartsGeneration, hgen]⟩

/-- **The end of a load.** Whichever dated ticket it is for, and whatever the result, the charts
are replaced by those of the load or not at all. -/
theorem Sound.complete {r : Run α} (h : r.Sound) {t : Ticket}
    (ht : t.Dated r.session.controller) (result : Except SourceError (Charts α)) :
    (r.complete t result).Sound := by
  rcases r.session.complete_cases t result with ⟨charts, hresult, hdone⟩ | ⟨hnot, hkeeps⟩
  · have hlast : (r.complete t result).lastApplied = some ⟨t, .ok charts, .applied⟩ := by
      rw [lastApplied, Run.complete, hdone, hresult]
      rfl
    have hsession : (r.complete t result).session = { r.session with
        charts, chartsGeneration := some t.generation, chartError := none } := by
      rw [Run.complete, hdone]
    constructor
    · -- The controller is the one before, so the tickets are as dated as they were.
      intro u hu
      rw [hsession]
      exact h.issued u hu
    · intro done heq
      rw [hlast, Option.some.injEq] at heq
      rw [← heq, hsession]
      exact ⟨rfl, rfl, ht⟩
    · intro hnone
      rw [hlast] at hnone
      simp at hnone
  · -- The log has one entry more, but it was not applied.
    refine h.keeps rfl ?_ hkeeps
    rw [lastApplied, Run.complete, List.find?_cons_of_neg (by simpa using hnot)]
    rfl

/-- **One event.** Each of them keeps a run sound and never takes the controller back. -/
theorem Sound.step {r : Run α} (h : r.Sound) (event : Event α) :
    (r.step event).Sound ∧ r.session.controller.Follows (r.step event).session.controller := by
  cases event with
  | clock now => exact ⟨⟨h.issued, h.applied, h.empty⟩, .refl _⟩
  | update op =>
    have hkeeps := r.session.keeps_updateRange r.now op
    exact ⟨h.keeps rfl rfl hkeeps, hkeeps.controller⟩
  | issue =>
    -- The only event that adds a ticket adds one of the present generation.
    refine ⟨⟨fun t ht => ?_, h.applied, h.empty⟩, .refl _⟩
    rcases List.mem_append.mp ht with hold | hnew
    · exact h.issued t hold
    · rw [List.mem_singleton.mp hnew]
      exact r.session.dated_ticket
  | table kind source =>
    have hkeeps := r.session.keeps_ensureTable kind source
    exact ⟨h.keeps rfl rfl hkeeps, hkeeps.controller⟩
  | reload source =>
    show (r.reload source).Sound ∧ r.session.controller.Follows (r.reload source).session.controller
    rw [reload_eq_complete]
    exact ⟨h.complete r.session.dated_ticket _, r.session.follows_complete _ _⟩
  | complete index result =>
    cases hindex : r.issued[index]? with
    | some t =>
      simp only [Run.step, hindex]
      exact ⟨h.complete (h.issued t (List.mem_of_getElem? hindex)) result,
        r.session.follows_complete t result⟩
    | none =>
      simp only [Run.step, hindex]
      exact ⟨h, .refl _⟩

/-- **A whole run.** -/
theorem Sound.after {r : Run α} (h : r.Sound) (events : List (Event α)) :
    (r.after events).Sound ∧
      r.session.controller.Follows (r.after events).session.controller := by
  induction events generalizing r with
  | nil => exact ⟨h, .refl _⟩
  | cons event events ih =>
    obtain ⟨hstep, hfollows⟩ := h.step event
    obtain ⟨hsound, hmore⟩ := ih hstep
    exact ⟨hsound, hfollows.trans hmore⟩

/-- **Soft cancellation is sound.** Take a session on any controller, and any events: requests,
moves of the clock, tickets, tables, and loads that end in any order. If the charts are not stale,
they are those of the last load that was applied, and its ticket bears the range of now. If they are
stale, they are still those of the last load that was applied, or there are none. A ticket that was
issued before a request that changed the range is stale at every later time, whatever the range is
by then, and its load changes nothing. -/
theorem soft_cancellation (now : Int) (c : Controller) (budget : Budget) (tableLimit : Option Nat)
    (events : List (Event α)) :
    let r : Run α := (start now c budget tableLimit).after events
    (r.session.chartsStale = false → ∃ done, r.lastApplied = some done ∧
      done.result = .ok r.session.charts ∧
      done.ticket.fromSec = r.session.controller.range.fromSeconds ∧
      done.ticket.toSec = r.session.controller.range.toSeconds) ∧
    (r.session.chartsStale = true →
      match r.lastApplied with
      | some done => done.result = .ok r.session.charts
      | none => r.session.charts = .empty) ∧
    (∀ t ∈ r.issued, ∀ op range generation,
      (r.session.updateRange r.now [op]).1 = .ok (.changed range generation) →
      ∀ more, let later := (r.step (.update op)).after more
      ∀ result, later.session.complete t result = (.stale, later.session)) := by
  intro r
  obtain ⟨hsound, -⟩ : r.Sound ∧ _ := (sound_start now c budget tableLimit).after events
  refine ⟨fun hfresh => ?_, fun _ => ?_, ?_⟩
  · have hgen : r.session.chartsGeneration = some r.session.controller.generation := by
      simpa [chartsStale] using hfresh
    cases hlast : r.lastApplied with
    | none =>
      rw [(hsound.empty hlast).2] at hgen
      simp at hgen
    | some done =>
      obtain ⟨hresult, hticket, hdated⟩ := hsound.applied done hlast
      -- Fresh charts are of the present generation, so their ticket bears the present range.
      have hpresent : done.ticket.generation = r.session.controller.generation :=
        Option.some.inj (hticket.symm.trans hgen)
      obtain ⟨hfrom, hto⟩ := hdated.bounds hpresent
      exact ⟨done, rfl, hresult, hfrom, hto⟩
  · cases hlast : r.lastApplied with
    | none => exact (hsound.empty hlast).1
    | some done => exact (hsound.applied done hlast).1
  · intro t ht op range generation hanswer more later result
    have hmoved : (r.step (.update op)).session.controller.generation =
        r.session.controller.generation + 1 := by
      show (r.session.updateRange r.now [op]).2.controller.generation = _
      rw [(r.session.updateRange_single r.now op).1] at hanswer
      rw [(r.session.updateRange_single r.now op).2]
      exact Controller.generation_of_changed hanswer
    have hlater := ((hsound.step (.update op)).1.after more).2.generation
    have hissued := (hsound.issued t ht).generation
    -- The generation was past the ticket's after the request, and has not gone back.
    refine complete_of_ne ?_ result
    show t.generation ≠ ((r.step (.update op)).after more).session.controller.generation
    omega

/-- The bounds 1000 and 2000 are left for others and come back. The ticket from before bears the
range of now, but it is of generation 1 and the range of generation 3, so its load is stale. -/
theorem stale_although_range_returns :
    let r : Run Int := (start 0 (Controller.blank 0 .standard) {} none).after
      [.update (.absolute 1000 2000), .issue]
    let later := (r.step (.update (.absolute 3000 4000))).after [.update (.absolute 1000 2000)]
    r.issued = [⟨1, 1, 2⟩] ∧
    (r.session.updateRange r.now [.absolute 3000 4000]).1 =
      .ok (.changed ⟨3000, 4000, by decide⟩ 2) ∧
    later.session.ticket = ⟨3, 1, 2⟩ ∧
    ∀ result, later.session.complete ⟨1, 1, 2⟩ result = (.stale, later.session) := by
  intro r later
  have hissued : r.issued = [⟨1, 1, 2⟩] := rfl
  have hchanged : (r.session.updateRange r.now [.absolute 3000 4000]).1 =
      .ok (.changed ⟨3000, 4000, by decide⟩ 2) := rfl
  refine ⟨hissued, hchanged, rfl, ?_⟩
  obtain ⟨-, -, hstale⟩ := @soft_cancellation Int 0 (Controller.blank 0 .standard) {} none
    [.update (.absolute 1000 2000), .issue]
  exact hstale ⟨1, 1, 2⟩ (by rw [hissued]; exact List.mem_singleton_self _) _ _ _ hchanged _

end Run

end Session

end TrafficBoard
