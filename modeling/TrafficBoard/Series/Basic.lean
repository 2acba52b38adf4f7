import TrafficBoard.Series.CountMap

namespace TrafficBoard

/-!
# Buckets, series and budgets — what the analytics take and give

* `Bucket` is a count map of one instant, `CounterBucket` the two traffic counters of one instant;
* `Series` is a named line of a chart, `Row` a line of a ranked table;
* `Budget` bounds the points of a chart, `Budget.maxSeriesFor` the number of its lines.
-/

variable {α : Type} [Count α]

/-- The counts of one sampling interval, by its start in seconds. -/
structure Bucket (α : Type) where
  time : Int
  counts : CountMap α

/-- The traffic of one sampling interval, by its start in seconds. -/
structure CounterBucket (α : Type) where
  time : Int
  up : α
  down : α

/-- A named line of a chart: instants with their values. -/
structure Series (α : Type) where
  name : String
  points : List (Int × α)
  deriving DecidableEq

namespace Series

/-- The sum of all values. -/
def total (s : Series α) : α :=
  Count.sum (s.points.map Prod.snd)

/-- The number of points. -/
def size (s : Series α) : Nat :=
  s.points.length

end Series

/-- A label with its value in a ranked table. -/
structure Row (α : Type) where
  key : String
  value : α
  deriving DecidableEq

/-- The bounds on the points of a chart. -/
structure Budget where
  /-- The most points of one series, meant to be below `2 ^ 63`. -/
  maxTimelinePoints : Nat := 1200
  /-- The most points of all series together. -/
  maxTotalPoints : Nat := 40000
  deriving DecidableEq

namespace Budget

instance : Inhabited Budget := ⟨{}⟩

/-- How many series of a length the budget has room for; one is always allowed. -/
def maxSeriesFor (b : Budget) (length : Nat) : Nat :=
  max 1 (b.maxTotalPoints / max 1 length)

end Budget

/-- Instants in seconds as instants in milliseconds. -/
def toMillis (points : List (Int × α)) : List (Int × α) :=
  points.map fun p => (p.1 * 1000, p.2)

/-- The counts of all buckets together, labels in the order of first mention. -/
def totals (buckets : List (Bucket α)) : CountMap α :=
  buckets.foldl (fun m b => m.addAll b.counts.entries) .empty

end TrafficBoard
