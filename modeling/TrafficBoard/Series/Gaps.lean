import TrafficBoard.Series.Basic
import TrafficBoard.Series.Builder
import TrafficBoard.Series.Plan
import TrafficBoard.Series.Step

namespace TrafficBoard

/-!
# Gap filling — the lines of the two traffic counters

* `GapFiller.fill` puts a zero into every empty place of the sampling grid, or adds places up where
  they are more than the budget allows;
* `GapFiller.trafficSeries` makes the two lines of a traffic chart.

An empty place is read as an interval without traffic.
-/

variable {α : Type} [Count α]

/-- The budget of points and the sampling step, where it is known. -/
structure GapFiller where
  budget : Budget := {}
  /-- A step that is not positive counts as unknown. -/
  baseStep : Option Int := none

namespace GapFiller

/-- The samples by instant; samples of one instant keep their order. -/
def sortSamples (samples : List (Int × α)) : List (Int × α) :=
  samples.mergeSort fun a b => a.1 ≤ b.1

/-- The samples on their grid. Without two distinct instants, or without a step, the sorted samples
stay as they are. -/
def fill (filler : GapFiller) (samples : List (Int × α)) : List (Int × α) :=
  let sorted := sortSamples samples
  let observed := dedup (sorted.map Prod.fst)
  match (usableStep filler.baseStep).or (modalStep observed) with
  | some step =>
    if 1 < observed.length then
      let plan := Plan.ofObserved observed (some step) filler.budget.maxTimelinePoints
      plan.points.zip (plan.accumulate sorted)
    else sorted
  | none => sorted

/-- The line of one counter. -/
def counterSeries (filler : GapFiller) (name : String) (samples : List (Int × α)) : Series α :=
  { name, points := toMillis (filler.fill samples) }

/-- The lines of the traffic up and down. -/
def trafficSeries (filler : GapFiller) (buckets : List (CounterBucket α)) : List (Series α) :=
  [filler.counterSeries "Up" (buckets.map fun b => (b.time, b.up)),
    filler.counterSeries "Down" (buckets.map fun b => (b.time, b.down))]

end GapFiller

end TrafficBoard
