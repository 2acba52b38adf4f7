import TrafficBoard.Dashboard.Source
import TrafficBoard.Dashboard.View
import TrafficBoard.Range.Controller

namespace TrafficBoard

/-!
# Dashboard sessions — the active range and the data fetched for it

* `Session` holds a controller, the charts and the tables;
* `Session.updateRangeAt` changes the range and drops what belongs to an earlier one, `updateRange`
  does so at one instant;
* `Session.ticket` begins a load of the charts, `Session.complete` ends it, `reload` does both;
* `Session.ensureTable` fetches a table once for each generation of the range;
* `Session.view` shows a device.

A ticket bears the generation for which it was issued, so a load that ends after the range has moved
on is dropped.
-/

variable {α : Type} [Count α]

/-- A load of the charts that has begun. -/
structure Ticket where
  generation : Nat
  fromSec : Int
  toSec : Int
  deriving DecidableEq

/-- How a load of the charts ended. -/
inductive LoadOutcome where
  | applied
  | failed
  /-- The range has moved on since the ticket was issued. -/
  | stale
  deriving DecidableEq

/-- The name of an outcome. -/
def LoadOutcome.label : LoadOutcome → String
  | .applied => "applied"
  | .failed => "failed"
  | .stale => "stale"

/-- A table with the generation for which it was fetched. -/
structure CachedTable (α : Type) where
  generation : Nat
  table : Table α

/-- The active range and the data fetched for it. -/
structure Session (α : Type) where
  controller : Controller
  budget : Budget
  /-- The number of rows of a table, if it is not the default. -/
  tableLimit : Option Nat
  charts : Charts α
  /-- The generation of the charts, once there are any. -/
  chartsGeneration : Option Nat
  chartError : Option SourceError
  tables : TableKind → Option (CachedTable α)
  tableErrors : TableKind → Option SourceError

/-- What the dashboard shows of a device. -/
structure DashboardView (α : Type) where
  range : TimeRange
  generation : Nat
  chartsStale : Bool
  charts : ChartViews α
  tables : TableViews α
  errors : List String

namespace Session

/-- A session without any data. -/
def start (c : Controller) (budget : Budget) (tableLimit : Option Nat) : Session α where
  controller := c
  budget := budget
  tableLimit := tableLimit
  charts := .empty
  chartsGeneration := none
  chartError := none
  tables _ := none
  tableErrors _ := none

/-- Whether no charts have been loaded for the current generation. -/
def chartsStale (s : Session α) : Bool :=
  s.chartsGeneration ≠ some s.controller.generation

/-- The table of a kind, if it is there. -/
def table? (s : Session α) (kind : TableKind) : Option (Table α) :=
  (s.tables kind).map CachedTable.table

/-! ### Range -/

/-- Drops the tables and all errors of fetches. -/
def invalidate (s : Session α) : Session α :=
  { s with tables := fun _ => none, tableErrors := fun _ => none, chartError := none }

/-- Carries out requests to the controller, each at its own instant, and drops what was fetched if
the last of them answers that the range has changed. -/
def updateRangeAt (requests : List (Int × Controller.Operation)) (s : Session α) :
    Controller.Answer × Session α :=
  let (answer, controller) := s.controller.applyAll requests
  let s := { s with controller }
  match answer with
  | .ok (.changed _ _) => (answer, s.invalidate)
  | .ok .unchanged => (answer, s)
  | .error _ => (answer, s)

/-- Carries out requests to the controller at one instant. -/
def updateRange (now : Int) (ops : List Controller.Operation) (s : Session α) :
    Controller.Answer × Session α :=
  s.updateRangeAt (ops.map fun op => (now, op))

/-! ### Charts -/

/-- Begins a load of the charts of the current range. -/
def ticket (s : Session α) : Ticket where
  generation := s.controller.generation
  fromSec := s.controller.range.fromSeconds
  toSec := s.controller.range.toSeconds

/-- Ends a load of the charts. -/
def complete (t : Ticket) (result : Except SourceError (Charts α)) (s : Session α) :
    LoadOutcome × Session α :=
  if t.generation = s.controller.generation then
    match result with
    | .ok charts =>
      (.applied, { s with charts, chartsGeneration := some t.generation, chartError := none })
    | .error e => (.failed, { s with chartError := some e })
  else (.stale, s)

/-- Loads the charts of the current range. -/
def reload (source : Source α) (s : Session α) : LoadOutcome × Session α :=
  let t := s.ticket
  s.complete t (source.charts t.fromSec t.toSec)

/-! ### Tables -/

/-- A choice for every kind of table with one of them replaced. -/
def replaceAt {β : Type} (kind : TableKind) (b : β) (choice : TableKind → β) : TableKind → β :=
  fun other => if other = kind then b else choice other

/-- Whether a table has been fetched for the current generation. -/
def isCached (s : Session α) (kind : TableKind) : Bool :=
  (s.tables kind).any fun cached => cached.generation = s.controller.generation

/-- Takes over what a source answered to a request for a table. -/
def receive (kind : TableKind) (result : Except SourceError (Table α)) (s : Session α) :
    Session α :=
  match result with
  | .ok table =>
    { s with
      tables := replaceAt kind (some ⟨s.controller.generation, table⟩) s.tables
      tableErrors := replaceAt kind none s.tableErrors }
  | .error e => { s with tableErrors := replaceAt kind (some e) s.tableErrors }

/-- Fetches a table unless it has been fetched for the current generation, and tells whether it
did. -/
def ensureTable (kind : TableKind) (source : Source α) (s : Session α) : Bool × Session α :=
  if s.isCached kind then (false, s)
  else
    let range := s.controller.range
    (true, s.receive kind (source.table kind range.fromSeconds range.toSeconds))

/-! ### Views -/

/-- The loaded tables; a table of another kind than the one asked for is not used. -/
def tableSet (s : Session α) : TableSet α where
  traffic := match s.table? .traffic with
    | some (.traffic items) => some items
    | _ => none
  domains := match s.table? .domains with
    | some (.domains items) => some items
    | _ => none
  countries := match s.table? .countries with
    | some (.countries items) => some items
    | _ => none
  protos := match s.table? .protos with
    | some (.protos items) => some items
    | _ => none

/-- The error of a table with its kind in front. -/
def tableErrorText (s : Session α) (kind : TableKind) : Option String :=
  (s.tableErrors kind).map fun e => kind.label ++ ": " ++ e.message

/-- The errors to show: of the range, of the charts, of the tables. -/
def errorTexts (s : Session α) : List String :=
  s.controller.errorMessage.toList ++ (s.chartError.map SourceError.message).toList ++
    TableKind.all.filterMap s.tableErrorText

/-- What the dashboard shows of a device. -/
def view (s : Session α) (mac : String) : DashboardView α where
  range := s.controller.range
  generation := s.controller.generation
  chartsStale := s.chartsStale
  charts := .ofCharts s.charts mac s.budget
  tables := .ofTables s.tableSet mac s.tableLimit
  errors := s.errorTexts

end Session

end TrafficBoard
