import TrafficBoard.Series.Builder

namespace TrafficBoard

/-!
# Series limits — how many lines the chart of a category has

* `SeriesLimit` is a fixed number, or one that follows the breadth of the newest bucket;
* `categoryTimeline` is the chart of a category under such a limit.
-/

variable {α : Type} [Count α]

/-- How many lines a chart has. -/
inductive SeriesLimit where
  | fixed (n : Nat)
  /-- The number of labels of the newest bucket, kept between two bounds. -/
  | adaptive (floor ceiling : Nat)
  deriving DecidableEq

namespace SeriesLimit

/-- The number of lines for a number of preferred labels; the upper bound wins. -/
def resolve (limit : SeriesLimit) (preferred : Nat) : Nat :=
  match limit with
  | .fixed n => n
  | .adaptive floor ceiling => min (max preferred floor) ceiling

/-- The limit of the chart of domains. -/
def domains : SeriesLimit := .fixed 12

/-- The limit of the chart of countries. -/
def countries : SeriesLimit := .adaptive 20 30

/-- The limit of the chart of companies. -/
def companies : SeriesLimit := countries

/-- The limit of the chart of protocols. -/
def protos : SeriesLimit := .adaptive 16 24

end SeriesLimit

/-- The rules of the chart of a category: the labels of the newest bucket go first. -/
def timelineLegend (buckets : List (Bucket α)) (limit : SeriesLimit) (budget : Budget) : Legend :=
  let preferred := latestKeys buckets
  let n := limit.resolve preferred.length
  { topN := n, preferred, maxSeries := some n, budget }

/-- The chart of a category. -/
def categoryTimeline (buckets : List (Bucket α)) (limit : SeriesLimit) (budget : Budget) :
    List (Series α) :=
  (timelineLegend buckets limit budget).build buckets

end TrafficBoard
