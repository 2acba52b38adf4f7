import TrafficBoard.Series.Plan
import TrafficBoard.Series.Ranking
import TrafficBoard.Series.Step

namespace TrafficBoard

/-!
# Categorical series — from the buckets of a category to the lines of its chart

* `Legend` holds the rules that choose the labels of a chart and bound its points;
* `Legend.select` chooses the labels: preferred ones first, then by total;
* `Legend.build` makes one series for each chosen label that is not zero throughout.

The sums of the windows keep the total of every label, and a label once preferred keeps its place
in the legend from one refresh to the next.
-/

variable {α : Type} [Count α]

/-- The rules of a chart of labels. -/
structure Legend where
  /-- The number of ranked labels after the preferred ones. -/
  topN : Nat := 6
  /-- The labels that go first. -/
  preferred : List String := []
  /-- The bound on all chosen labels; `topN` where it is not given. -/
  maxSeries : Option Nat := none
  budget : Budget := {}
  /-- The sampling step, where it is known; one that is not positive counts as unknown. -/
  baseStep : Option Int := none

/-- A step that is positive. -/
def usableStep (step : Option Int) : Option Int :=
  step.filter fun s => 0 < s

namespace Legend

/-- The preferred labels without the empty one and without repeats. -/
def leading (legend : Legend) : List String :=
  (legend.preferred.filter fun label => !label.isEmpty).eraseDups

/-- The ranked labels that are not preferred. -/
def ranked (legend : Legend) (totals : CountMap α) : List String :=
  (((rank totals).map Prod.fst).filter fun label => !legend.leading.contains label).take
    legend.topN

/-- The chosen labels in order: preferred, then ranked. -/
def select (legend : Legend) (totals : CountMap α) : List String :=
  (legend.leading ++ legend.ranked totals).take (legend.maxSeries.getD legend.topN)

/-- The plan of the grid for the instants of the buckets. -/
def plan (legend : Legend) (buckets : List (Bucket α)) : Plan :=
  let observed := timeline (buckets.map Bucket.time)
  let step := (usableStep legend.baseStep).or (modalStep observed)
  Plan.ofObserved observed step legend.budget.maxTimelinePoints

/-- The chosen labels that the budget of points has room for. -/
def keys (legend : Legend) (buckets : List (Bucket α)) : List String :=
  (legend.select (totals buckets)).take (legend.budget.maxSeriesFor (legend.plan buckets).size)

/-- The counts of one label with their instants, in the order of the buckets. -/
def samplesOf (label : String) (buckets : List (Bucket α)) : List (Int × α) :=
  buckets.filterMap fun b => (b.counts.get? label).map fun count => (b.time, count)

/-- The line of one label over a grid. -/
def line (plan : Plan) (buckets : List (Bucket α)) (label : String) : Series α :=
  { name := label
    points := toMillis (plan.points.zip (plan.accumulate (samplesOf label buckets))) }

/-- Whether any value of a series is not zero. -/
def isActive (s : Series α) : Bool :=
  s.points.any fun p => !Count.isZero p.2

/-- The series of a chart; without buckets there are none. -/
def build (legend : Legend) (buckets : List (Bucket α)) : List (Series α) :=
  ((legend.keys buckets).map (line (legend.plan buckets) buckets)).filter isActive

end Legend

end TrafficBoard
