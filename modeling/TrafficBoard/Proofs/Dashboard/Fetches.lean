import Mathlib
import TrafficBoard.Proofs.Dashboard.Cancellation

namespace TrafficBoard.Session

/-!
# Fetches — tables that are asked for once for each range

* `ensureTableWith` makes sure of a table with a source that is asked in any monad, `fetchesOf` are
  the requests that it makes of a source that writes them down;
* `Watched` is a run with a journal of the changes of the range and the fetches of tables, `recent`
  are the fetches since the last change;
* `Coherent` says what tables, errors and journal have to do with each other, and every event keeps
  to it;
* `Watched.table_cache_coherence` says which tables a session has and when it asks for one, whatever
  the run.

A session looks a table up by its kind alone. That this is a table of the present range rests on the
tables being dropped with every change, and on nothing else ever changing the range.
-/

variable {α : Type}

/-! ### Requests to a source -/

/-- A request to a source for a table, with its answer. -/
structure Fetch (α : Type) where
  kind : TableKind
  fromSec : Int
  toSec : Int
  answer : Except SourceError (Table α)

/-- Whether a fetch has succeeded and brought a table of a kind. -/
def Fetch.Brings (fetch : Fetch α) (kind : TableKind) : Prop :=
  fetch.kind = kind ∧ ∃ table, fetch.answer = .ok table

/-- Fetches a table unless it has been fetched for the current generation, and tells whether it did,
from a source that is asked in a monad. -/
def ensureTableWith {m : Type → Type} [Monad m] (kind : TableKind)
    (ask : TableKind → Int → Int → m (Except SourceError (Table α))) (s : Session α) :
    m (Bool × Session α) := do
  if s.isCached kind then return (false, s)
  else
    let range := s.controller.range
    let answer ← ask kind range.fromSeconds range.toSeconds
    return (true, s.receive kind answer)

/-- A source that writes down the requests made to it, newest first. -/
def asking (source : Source α) (kind : TableKind) (fromSec toSec : Int) :
    StateM (List (Fetch α)) (Except SourceError (Table α)) := do
  let answer := source.table kind fromSec toSec
  modify fun fetches => ⟨kind, fromSec, toSec, answer⟩ :: fetches
  return answer

/-- The requests to a source in making sure of a table. -/
def fetchesOf (kind : TableKind) (source : Source α) (s : Session α) : List (Fetch α) :=
  ((s.ensureTableWith kind (asking source)).run []).2

section Ensure

variable (s : Session α) (kind : TableKind) (source : Source α)

/-- A source that just answers makes it the operation of sessions. -/
theorem ensureTableWith_pure :
    (s.ensureTableWith kind fun kind fromSec toSec =>
      (pure (source.table kind fromSec toSec) : Id _)) = pure (s.ensureTable kind source) := by
  unfold ensureTableWith ensureTable
  split <;> rfl

/-- Writing the requests down does not change what comes of them. -/
theorem ensureTableWith_asking :
    ((s.ensureTableWith kind (asking source)).run []).1 = s.ensureTable kind source := by
  unfold ensureTableWith ensureTable
  split <;> rfl

/-- A table that is there for the current generation is not asked for. -/
theorem ensureTable_of_cached (h : s.isCached kind = true) :
    s.ensureTable kind source = (false, s) ∧ s.fetchesOf kind source = [] := by
  unfold ensureTable fetchesOf ensureTableWith
  rw [if_pos h, if_pos h]
  exact ⟨rfl, rfl⟩

/-- The fetch of a table for the current range. -/
def fetchNow : Fetch α :=
  ⟨kind, s.controller.range.fromSeconds, s.controller.range.toSeconds,
    source.table kind s.controller.range.fromSeconds s.controller.range.toSeconds⟩

/-- Any other table is asked for once, and the answer is received. -/
theorem ensureTable_of_not_cached (h : ¬ s.isCached kind = true) :
    s.ensureTable kind source = (true, s.receive kind (s.fetchNow kind source).answer) ∧
      s.fetchesOf kind source = [s.fetchNow kind source] := by
  unfold ensureTable fetchesOf ensureTableWith
  rw [if_neg h, if_neg h]
  exact ⟨rfl, rfl⟩

end Ensure

/-! ### The journal of a run -/

/-- What a journal notes: a change of the range, or a fetch with the generation for which it was
made. -/
inductive Mark (α : Type) where
  | changed
  | fetched (generation : Nat) (fetch : Fetch α)

/-- The fetches since the last change of the range, newest first. -/
def recent : List (Mark α) → List (Fetch α)
  | [] => []
  | .changed :: _ => []
  | .fetched _ fetch :: earlier => fetch :: recent earlier

/-- The fetches of all time with their generations, newest first. -/
def fetches : List (Mark α) → List (Nat × Fetch α)
  | [] => []
  | .changed :: earlier => fetches earlier
  | .fetched generation fetch :: earlier => (generation, fetch) :: fetches earlier

/-- What an event adds to the journal of a run. -/
def Run.marksOf (r : Run α) : Event α → List (Mark α)
  | .update op =>
    match (r.session.updateRange r.now [op]).1 with
    | .ok (.changed _ _) => [.changed]
    | .ok .unchanged => []
    | .error _ => []
  | .table kind source =>
    (r.session.fetchesOf kind source).map (.fetched r.session.controller.generation)
  | .clock _ => []
  | .issue => []
  | .reload _ => []
  | .complete _ _ => []

/-- A run with its journal, newest first. -/
structure Watched (α : Type) where
  run : Run α
  journal : List (Mark α)

namespace Watched

/-- A session without any data and an empty journal. -/
def start (now : Int) (c : Controller) (budget : Budget) (tableLimit : Option Nat) :
    Watched α where
  run := .start now c budget tableLimit
  journal := []

/-- One event. -/
def step (w : Watched α) (event : Event α) : Watched α where
  run := w.run.step event
  journal := w.run.marksOf event ++ w.journal

/-- Events one after the other. -/
def after (w : Watched α) (events : List (Event α)) : Watched α :=
  events.foldl step w

/-- Keeping a journal does not change the run. -/
theorem run_after (w : Watched α) (events : List (Event α)) :
    (w.after events).run = w.run.after events := by
  induction events generalizing w with
  | nil => rfl
  | cons event events ih => exact ih (w.step event)

end Watched

/-! ### What one event does to the tables -/

/-- A request that is answered with a change drops the tables and their errors, any other one leaves
them alone. -/
theorem updateRange_tables (s : Session α) (now : Int) (op : Controller.Operation) :
    (∃ range generation, (s.controller.apply now op).1 = .ok (.changed range generation) ∧
      (s.updateRange now [op]).2.tables = (fun _ => none) ∧
      (s.updateRange now [op]).2.tableErrors = fun _ => none) ∨
    ((∀ range generation, (s.controller.apply now op).1 ≠ .ok (.changed range generation)) ∧
      (s.updateRange now [op]).2.tables = s.tables ∧
      (s.updateRange now [op]).2.tableErrors = s.tableErrors) := by
  rw [updateRange_one]
  unfold updateRangeAt
  rw [show s.controller.applyAll [(now, op)] = s.controller.apply now op from rfl]
  rcases s.controller.apply now op with ⟨e | update, controller⟩
  · exact Or.inr ⟨by simp, rfl, rfl⟩
  · cases update with
    | changed range generation => exact Or.inl ⟨range, generation, rfl, rfl, rfl⟩
    | unchanged => exact Or.inr ⟨by simp, rfl, rfl⟩

/-- A request that is not answered with a change keeps range and generation. -/
theorem range_of_not_changed {now : Int} {op : Controller.Operation} {c : Controller}
    (h : ∀ range generation, (c.apply now op).1 ≠ .ok (.changed range generation)) :
    (c.apply now op).2.range = c.range ∧ (c.apply now op).2.generation = c.generation := by
  rcases c.apply_cases now op with ⟨e, -, hdone⟩ | ⟨target, -, hdone⟩
  · exact ⟨hdone.range, hdone.generation⟩
  · have hanswer := hdone.answer
    have hgeneration := hdone.generation
    by_cases hsame : target = c.range ∧ 0 < c.generation
    · rw [if_pos hsame] at hgeneration
      exact ⟨hdone.range.trans hsame.1, hgeneration⟩
    · rw [if_neg hsame] at hanswer
      exact absurd hanswer (h _ _)

/-- **A request changes the range, and the tables and their errors are dropped; or it keeps range,
generation, tables and errors.** -/
theorem updateRange_cases (s : Session α) (now : Int) (op : Controller.Operation) :
    (∃ range generation, (s.updateRange now [op]).1 = .ok (.changed range generation) ∧
      (s.updateRange now [op]).2.controller.generation = s.controller.generation + 1 ∧
      (s.updateRange now [op]).2.tables = (fun _ => none) ∧
      (s.updateRange now [op]).2.tableErrors = fun _ => none) ∨
    ((∀ range generation, (s.updateRange now [op]).1 ≠ .ok (.changed range generation)) ∧
      (s.updateRange now [op]).2.controller.range = s.controller.range ∧
      (s.updateRange now [op]).2.controller.generation = s.controller.generation ∧
      (s.updateRange now [op]).2.tables = s.tables ∧
      (s.updateRange now [op]).2.tableErrors = s.tableErrors) := by
  obtain ⟨hanswer, hcontroller⟩ := s.updateRange_single now op
  rw [hanswer, hcontroller]
  rcases s.updateRange_tables now op with
    ⟨range, generation, hchanged, hdropped⟩ | ⟨hnot, hkept⟩
  · exact Or.inl ⟨range, generation, hchanged, Controller.generation_of_changed hchanged, hdropped⟩
  · obtain ⟨hrange, hgeneration⟩ := range_of_not_changed hnot
    exact Or.inr ⟨hnot, hrange, hgeneration, hkept⟩

/-- A load of the charts that ends leaves tables and errors alone. -/
theorem complete_tables (s : Session α) (t : Ticket) (result : Except SourceError (Charts α)) :
    (s.complete t result).2.controller = s.controller ∧
      (s.complete t result).2.tables = s.tables ∧
      (s.complete t result).2.tableErrors = s.tableErrors := by
  unfold complete
  split
  · cases result with
    | ok charts => exact ⟨rfl, rfl, rfl⟩
    | error e => exact ⟨rfl, rfl, rfl⟩
  · exact ⟨rfl, rfl, rfl⟩

/-- The place of a kind after an answer to a request for some kind has been received: the table that
was brought, without an error, or what was there before. -/
theorem receive_cases (s : Session α) (kind : TableKind) (answer : Except SourceError (Table α))
    (other : TableKind) :
    (∃ table, answer = .ok table ∧ other = kind ∧
      (s.receive kind answer).tables other = some ⟨s.controller.generation, table⟩ ∧
      (s.receive kind answer).tableErrors other = none) ∨
    (¬ (other = kind ∧ ∃ table, answer = .ok table) ∧
      (s.receive kind answer).tables other = s.tables other ∧
      (other ≠ kind → (s.receive kind answer).tableErrors other = s.tableErrors other)) := by
  by_cases hsame : other = kind
  · cases answer with
    | ok table => exact Or.inl ⟨table, rfl, hsame, if_pos hsame, if_pos hsame⟩
    | error e => exact Or.inr ⟨by simp, rfl, fun hne => absurd hsame hne⟩
  · cases answer with
    | ok table => exact Or.inr ⟨fun h => hsame h.1, if_neg hsame, fun hne => if_neg hne⟩
    | error e => exact Or.inr ⟨fun h => hsame h.1, rfl, fun hne => if_neg hne⟩

/-- An answer that is received leaves the controller alone. -/
theorem receive_controller (s : Session α) (kind : TableKind)
    (answer : Except SourceError (Table α)) :
    (s.receive kind answer).controller = s.controller := by
  cases answer with
  | ok table => rfl
  | error e => rfl

/-! ### Tables and the fetches that brought them -/

/-- The tables of a session are just those that some fetches have brought, which were all made for
its present range, and none of them has an error as well. -/
structure FilledBy (s : Session α) (since : List (Fetch α)) : Prop where
  present : ∀ fetch ∈ since, fetch.fromSec = s.controller.range.fromSeconds ∧
    fetch.toSec = s.controller.range.toSeconds
  cached : ∀ kind cached, s.tables kind = some cached →
    cached.generation = s.controller.generation ∧
      ∃ fetch ∈ since, fetch.kind = kind ∧ fetch.answer = .ok cached.table
  missing : ∀ kind, s.tables kind = none → ∀ fetch ∈ since, ¬ fetch.Brings kind
  errors : ∀ kind, s.tables kind = none ∨ s.tableErrors kind = none

namespace FilledBy

variable {s later : Session α} {since : List (Fetch α)}

/-- A session with neither tables nor errors is filled by no fetches. -/
theorem nil (htables : s.tables = fun _ => none) : FilledBy s [] where
  present _ hfetch := absurd hfetch List.not_mem_nil
  cached kind cached h := by simp [htables] at h
  missing _ _ _ hfetch := absurd hfetch List.not_mem_nil
  errors _ := Or.inl (by rw [htables])

/-- What leaves range, generation, tables and errors alone keeps the tables filled. -/
theorem keep (h : FilledBy s since)
    (hrange : later.controller.range = s.controller.range)
    (hgeneration : later.controller.generation = s.controller.generation)
    (htables : later.tables = s.tables) (herrors : later.tableErrors = s.tableErrors) :
    FilledBy later since := by
  obtain ⟨hpresent, hcached, hmissing, hexclusive⟩ := h
  constructor
  · rw [hrange]
    exact hpresent
  · rw [hgeneration, htables]
    exact hcached
  · rw [htables]
    exact hmissing
  · rw [htables, herrors]
    exact hexclusive

/-- A table that is there has been fetched for the current generation. -/
theorem isCached_iff_isSome (h : FilledBy s since) (kind : TableKind) :
    s.isCached kind = true ↔ (s.tables kind).isSome = true := by
  unfold isCached
  cases htable : s.tables kind with
  | none => simp
  | some cached => simpa using (h.cached kind cached htable).1

/-- Just the tables that have been brought are there. -/
theorem isCached_iff (h : FilledBy s since) (kind : TableKind) :
    s.isCached kind = true ↔ ∃ fetch ∈ since, fetch.Brings kind := by
  rw [h.isCached_iff_isSome kind]
  cases htable : s.tables kind with
  | none => simpa using h.missing kind htable
  | some cached =>
    obtain ⟨-, fetch, hmem, hkind, hanswer⟩ := h.cached kind cached htable
    exact iff_of_true rfl ⟨fetch, hmem, hkind, cached.table, hanswer⟩

/-- A fetch for a kind without a table, when its answer has been received. -/
theorem receive (h : FilledBy s since) {kind : TableKind} (hnone : s.tables kind = none)
    (source : Source α) :
    FilledBy (s.receive kind (s.fetchNow kind source).answer)
      (s.fetchNow kind source :: since) := by
  have hcases := s.receive_cases kind (s.fetchNow kind source).answer
  constructor
  · rw [receive_controller, List.forall_mem_cons]
    exact ⟨⟨rfl, rfl⟩, h.present⟩
  · intro other cached hother
    rw [receive_controller]
    rcases hcases other with ⟨table, hanswer, hsame, hthere, -⟩ | ⟨-, hbefore, -⟩
    · rw [hthere, Option.some.injEq] at hother
      rw [← hother]
      exact ⟨rfl, _, List.mem_cons_self, hsame.symm, hanswer⟩
    · rw [hbefore] at hother
      obtain ⟨hgeneration, fetch, hmem, hbrought⟩ := h.cached other cached hother
      exact ⟨hgeneration, fetch, List.mem_cons_of_mem _ hmem, hbrought⟩
  · intro other hother
    rw [List.forall_mem_cons]
    rcases hcases other with ⟨table, -, -, hthere, -⟩ | ⟨hnot, hbefore, -⟩
    · rw [hthere] at hother
      simp at hother
    · rw [hbefore] at hother
      exact ⟨fun hbrings => hnot ⟨hbrings.1.symm, hbrings.2⟩, h.missing other hother⟩
  · intro other
    rcases hcases other with ⟨table, -, -, -, hclear⟩ | ⟨-, hbefore, herror⟩
    · exact Or.inr hclear
    · rw [hbefore]
      by_cases hsame : other = kind
      · -- The table was not there before, so an error does not stand beside it.
        exact Or.inl (by rw [hsame, hnone])
      · rw [herror hsame]
        exact h.errors other

/-- **Making sure of a table.** A table that is there is left alone, and any other one is asked for,
for the present range. -/
theorem ensureTable (h : FilledBy s since) (kind : TableKind) (source : Source α) :
    FilledBy (s.ensureTable kind source).2 (s.fetchesOf kind source ++ since) := by
  by_cases hcached : s.isCached kind = true
  · obtain ⟨hensure, hfetches⟩ := s.ensureTable_of_cached kind source hcached
    rw [hensure, hfetches]
    exact h
  · obtain ⟨hensure, hfetches⟩ := s.ensureTable_of_not_cached kind source hcached
    rw [hensure, hfetches]
    rw [h.isCached_iff_isSome, Option.not_isSome_iff_eq_none] at hcached
    exact h.receive hcached source

end FilledBy

/-! ### What a run keeps to -/

/-- The tables are those that were brought since the last change. No generation brings two tables of
a kind. -/
structure Coherent (w : Watched α) : Prop where
  filled : FilledBy w.run.session (recent w.journal)
  dated : ∀ entry ∈ fetches w.journal, entry.1 ≤ w.run.session.controller.generation ∧
    (entry.1 = w.run.session.controller.generation → entry.2 ∈ recent w.journal)
  once : (fetches w.journal).Pairwise fun later earlier =>
    later.1 = earlier.1 → ∀ kind, ¬ (later.2.Brings kind ∧ earlier.2.Brings kind)

namespace Coherent

variable {w : Watched α}

/-- A session without any data is coherent. -/
theorem start (now : Int) (c : Controller) (budget : Budget) (tableLimit : Option Nat) :
    Coherent (Watched.start now c budget tableLimit : Watched α) where
  filled := .nil rfl
  dated _ hentry := absurd hentry List.not_mem_nil
  once := List.Pairwise.nil

/-- What leaves range, generation, tables, errors and journal alone keeps a run coherent. -/
theorem keep {later : Watched α} (h : Coherent w) (hjournal : later.journal = w.journal)
    (hrange : later.run.session.controller.range = w.run.session.controller.range)
    (hgeneration : later.run.session.controller.generation = w.run.session.controller.generation)
    (htables : later.run.session.tables = w.run.session.tables)
    (herrors : later.run.session.tableErrors = w.run.session.tableErrors) : Coherent later where
  filled := by
    rw [hjournal]
    exact h.filled.keep hrange hgeneration htables herrors
  dated := by
    rw [hjournal, hgeneration]
    exact h.dated
  once := by
    rw [hjournal]
    exact h.once

/-- **A request.** A change empties the tables and starts the fetches anew, with a generation that
none has been made for; any other answer leaves all of it alone. -/
theorem update (h : Coherent w) (op : Controller.Operation) : Coherent (w.step (.update op)) := by
  have hjournal : (w.step (.update op)).journal = w.run.marksOf (.update op) ++ w.journal := rfl
  have hsession : (w.step (.update op)).run.session =
      (w.run.session.updateRange w.run.now [op]).2 := rfl
  rcases w.run.session.updateRange_cases w.run.now op with
    ⟨range, generation, hanswer, hgeneration, htables, -⟩ |
      ⟨hanswer, hrange, hgeneration, htables, herrors⟩
  · have hmarks : w.run.marksOf (.update op) = [.changed] := by
      simp only [Run.marksOf, hanswer]
    rw [hmarks] at hjournal
    rw [← hsession] at hgeneration htables
    constructor
    · rw [hjournal]
      exact .nil htables
    · rw [hjournal, hgeneration]
      intro entry hentry
      have hle := (h.dated entry hentry).1
      -- Every fetch so far is of an earlier generation than the new one.
      exact ⟨by omega, fun heq => by omega⟩
    · rw [hjournal]
      exact h.once
  · have hmarks : w.run.marksOf (.update op) = [] := by
      show (match (w.run.session.updateRange w.run.now [op]).1 with
        | .ok (.changed _ _) => [Mark.changed]
        | .ok .unchanged => []
        | .error _ => []) = []
      split
      next range generation hchanged => exact absurd hchanged (hanswer range generation)
      all_goals rfl
    rw [hmarks, List.nil_append] at hjournal
    rw [← hsession] at hrange hgeneration htables herrors
    exact h.keep hjournal hrange hgeneration htables herrors

/-- **Making sure of a table.** The kind that is asked for has not been brought since the last
change, so not for this generation either. -/
theorem table (h : Coherent w) (kind : TableKind) (source : Source α) :
    Coherent (w.step (.table kind source)) := by
  have hfilled := h.filled.ensureTable kind source
  have hjournal : (w.step (.table kind source)).journal =
      (w.run.session.fetchesOf kind source).map (.fetched w.run.session.controller.generation) ++
        w.journal := rfl
  have hsession : (w.step (.table kind source)).run.session =
      (w.run.session.ensureTable kind source).2 := rfl
  rw [← hsession] at hfilled
  by_cases hcached : w.run.session.isCached kind = true
  · obtain ⟨hensure, hfetches⟩ := w.run.session.ensureTable_of_cached kind source hcached
    rw [hensure] at hsession
    rw [hfetches] at hjournal
    exact h.keep hjournal (by rw [hsession]) (by rw [hsession]) (by rw [hsession])
      (by rw [hsession])
  · obtain ⟨hensure, hfetches⟩ := w.run.session.ensureTable_of_not_cached kind source hcached
    rw [hensure] at hsession
    rw [hfetches] at hjournal hfilled
    rw [h.filled.isCached_iff] at hcached
    constructor
    · rw [hjournal]
      exact hfilled
    · rw [hjournal, hsession, receive_controller]
      show ∀ entry ∈ (_, _) :: fetches w.journal, _ ∧ (_ → _ ∈ _ :: recent w.journal)
      rw [List.forall_mem_cons]
      refine ⟨⟨le_refl _, fun _ => List.mem_cons_self⟩, fun entry hentry => ?_⟩
      obtain ⟨hle, hmem⟩ := h.dated entry hentry
      exact ⟨hle, fun heq => List.mem_cons_of_mem _ (hmem heq)⟩
    · rw [hjournal]
      refine List.pairwise_cons.mpr ⟨fun entry hentry heq other hboth => ?_, h.once⟩
      -- An entry of this generation is recent, and no recent one has brought the kind.
      obtain ⟨⟨hthere, -⟩, hbrought⟩ := hboth
      have hmem := (h.dated entry hentry).2 heq.symm
      have hkind : kind = other := hthere
      rw [← hkind] at hbrought
      exact hcached ⟨_, hmem, hbrought⟩

/-- A load of the charts that ends. -/
theorem complete (h : Coherent w) (t : Ticket) (result : Except SourceError (Charts α)) :
    Coherent ⟨w.run.complete t result, w.journal⟩ := by
  obtain ⟨hcontroller, htables, herrors⟩ := w.run.session.complete_tables t result
  exact h.keep rfl (congrArg Controller.range hcontroller)
    (congrArg Controller.generation hcontroller) htables herrors

/-- **One event.** -/
theorem step (h : Coherent w) (event : Event α) : Coherent (w.step event) := by
  cases event with
  | clock now => exact h.keep rfl rfl rfl rfl rfl
  | update op => exact h.update op
  | issue => exact h.keep rfl rfl rfl rfl rfl
  | table kind source => exact h.table kind source
  | reload source => exact h.complete _ _
  | complete index result =>
    cases hindex : w.run.issued[index]? with
    | some t =>
      have hstep : w.step (.complete index result) = ⟨w.run.complete t result, w.journal⟩ := by
        simp only [Watched.step, Run.step, hindex, Run.marksOf, List.nil_append]
      rw [hstep]
      exact h.complete t result
    | none =>
      have hstep : w.step (.complete index result) = w := by
        simp only [Watched.step, Run.step, hindex, Run.marksOf, List.nil_append]
      rw [hstep]
      exact h

/-- **A whole run.** -/
theorem after (h : Coherent w) (events : List (Event α)) : Coherent (w.after events) := by
  induction events generalizing w with
  | nil => exact h
  | cons event events ih => exact ih (h.step event)

end Coherent

/-- **The tables of a session are coherent.** Take a session on any controller, and any events:
requests, moves of the clock, tables, and loads of the charts that end in any order, with sources
that answer or fail. Every table that is there was brought by a fetch of that kind for the range of
now. A table is asked for just when no fetch of its kind has brought one since the last request that
was answered with a change, once and for the range of now, and that is when the answer is that it
was fetched. No generation has two fetches that brought a table of a kind, and no kind has both a
table and an error. -/
theorem Watched.table_cache_coherence (now : Int) (c : Controller) (budget : Budget)
    (tableLimit : Option Nat) (events : List (Event α)) :
    let w : Watched α := (start now c budget tableLimit).after events
    let s := w.run.session
    (∀ kind table, s.table? kind = some table →
      ∃ fetch ∈ recent w.journal, fetch.kind = kind ∧ fetch.answer = .ok table ∧
        fetch.fromSec = s.controller.range.fromSeconds ∧
        fetch.toSec = s.controller.range.toSeconds) ∧
    (∀ kind source,
      ((s.ensureTable kind source).1 = true ↔ ¬ ∃ fetch ∈ recent w.journal, fetch.Brings kind) ∧
      s.fetchesOf kind source =
        if (s.ensureTable kind source).1 then [s.fetchNow kind source] else []) ∧
    ((fetches w.journal).Pairwise fun later earlier =>
      later.1 = earlier.1 → ∀ kind, ¬ (later.2.Brings kind ∧ earlier.2.Brings kind)) ∧
    ∀ kind, s.table? kind = none ∨ s.tableErrors kind = none := by
  intro w s
  obtain ⟨hfilled, -, honce⟩ : Coherent w := (Coherent.start now c budget tableLimit).after events
  refine ⟨fun kind table htable => ?_, fun kind source => ?_, honce, fun kind => ?_⟩
  · obtain ⟨cached, hcached, rfl⟩ := Option.map_eq_some_iff.mp htable
    obtain ⟨-, fetch, hmem, hkind, hanswer⟩ := hfilled.cached kind cached hcached
    exact ⟨fetch, hmem, hkind, hanswer, hfilled.present fetch hmem⟩
  · rw [← hfilled.isCached_iff kind]
    by_cases hcached : s.isCached kind = true
    · obtain ⟨hensure, hfetches⟩ := s.ensureTable_of_cached kind source hcached
      rw [hensure, hfetches]
      exact ⟨iff_of_false Bool.false_ne_true (not_not_intro hcached), rfl⟩
    · obtain ⟨hensure, hfetches⟩ := s.ensureTable_of_not_cached kind source hcached
      rw [hensure, hfetches]
      exact ⟨iff_of_true rfl hcached, rfl⟩
  · refine (hfilled.errors kind).imp_left fun hnone => ?_
    unfold table?
    rw [hnone]
    rfl

/-- A table that could not be had is asked for again, and so is one of a range that has been
left. -/
example :
    let failing : Source Int := ⟨fun _ _ => .ok .empty, fun _ _ _ => .error (.unavailable "")⟩
    let working : Source Int := ⟨fun _ _ => .ok .empty, fun _ _ _ => .ok (.traffic [])⟩
    let w := (Watched.start 0 (.blank 0 .standard) {} none).after
      [.update (.absolute 1000 2000), .table .traffic failing, .table .traffic working,
        .table .traffic working, .update (.absolute 0 2000), .table .traffic working]
    (fetches w.journal).map (fun entry => (entry.1, entry.2.fromSec)) = [(2, 0), (1, 1), (1, 1)] :=
  rfl

end TrafficBoard.Session
